import SchemaReconcile.Extract.Basic
import SchemaReconcile.Proofs.Extract.Entities
import SchemaReconcile.Proofs.Extract.Relations

/-!
# What a document yields

An extraction that succeeds is taken apart once: `extract_ok` lists what each stage did, in terms of the
declarations of the document (`Declarations.Yields`), and the stages make it up again (`Yields.extract_eq`).
Each entity of the model comes from the declaration of its name (`Yields.exists_declaration`), with its fields
and indexes (`buildEntity_ok`).
-/

namespace SchemaReconcile

/-- The model that declarations yield, stage by stage. -/
structure Declarations.Yields (ds : Declarations) (d : Document) (m : Model) : Prop where
  document : Declarations.ofDocument d = .ok ds
  enums : List.Forall₂ (fun t e => buildEnum t = .ok e) (ds.ofRole .enumeration) m.enums
  shapes : List.Forall₂ (fun t s => ds.buildShape t = .ok s) (ds.ofRole .shape) m.jsonShapes
  entities : List.Forall₂ (fun t e => ds.buildEntity t = .ok e) (ds.ofRole .entity) m.entities
  storage : checkStorageNames [] m.entities = .ok ()
  relations : m.relations =
    (declaredFields ds m.entities).filterMap fun p => relationOf? m.entities p.1 p.2
  apart : m.relations.Pairwise ReadsApart

/-- The stages of an extraction that succeeds. -/
theorem extract_ok {d : Document} {m : Model} (h : extract d = .ok m) :
    ∃ ds : Declarations, ds.Yields d m := by
  obtain ⟨parts, hparts, h⟩ := bind_eq_ok.mp h
  obtain ⟨ds, hds, hparts⟩ := bind_eq_ok.mp hparts
  obtain ⟨enums, henums, hparts⟩ := bind_eq_ok.mp hparts
  obtain ⟨shapes, hshapes, hparts⟩ := bind_eq_ok.mp hparts
  obtain rfl := Except.ok.inj hparts
  obtain ⟨entities, hentities, h⟩ := bind_eq_ok.mp h
  obtain ⟨⟨⟩, hstorage, h⟩ := bind_eq_ok.mp h
  dsimp only at h
  split at h
  · cases h
  · next found hfound =>
    obtain rfl := Except.ok.inj h
    obtain ⟨hrelations, hapart⟩ := inferRelations_ok hfound
    exact ⟨ds, hds, mapM_eq_ok_iff.mp henums, mapM_eq_ok_iff.mp hshapes,
      Progress.of_eq_iff.mp (Progress.all_eq_ok.mp hentities), hstorage, hrelations, hapart⟩

/-- The stages make up the extraction. -/
theorem Declarations.Yields.extract_eq {ds : Declarations} {d : Document} {m : Model}
    (h : ds.Yields d m) : extract d = .ok m := by
  obtain ⟨found, hfound⟩ := exists_inferRelations (h.relations ▸ h.apart)
  have hparts : Parts.ofDocument d = .ok ⟨ds, m.enums, m.jsonShapes⟩ :=
    bind_eq_ok.mpr ⟨ds, h.document, bind_eq_ok.mpr ⟨m.enums, mapM_eq_ok_iff.mpr h.enums,
      bind_eq_ok.mpr ⟨m.jsonShapes, mapM_eq_ok_iff.mpr h.shapes, rfl⟩⟩⟩
  have hentities : Progress.of ds.buildEntity (ds.ofRole .entity) = ⟨m.entities, none⟩ :=
    Progress.of_eq_iff.mpr h.entities
  refine bind_eq_ok.mpr ⟨_, hparts, bind_eq_ok.mpr ⟨m.entities, Progress.all_eq_ok.mpr hentities,
    bind_eq_ok.mpr ⟨(), h.storage, ?_⟩⟩⟩
  dsimp only
  rw [hfound]
  dsimp only
  rw [(inferRelations_ok hfound).1, ← h.relations]
  rfl

/-- The name of an enumeration is that of its declaration. -/
theorem name_of_buildEnum {t : TypeDeclaration} {e : Enumeration} (h : buildEnum t = .ok e) :
    e.name = t.name := by
  unfold buildEnum at h
  split at h
  · cases h
  · exact Except.ok.inj h ▸ rfl

namespace Declarations

variable {ds : Declarations} {t : TypeDeclaration} {e : Entity}

/-- The parts of an entity: its stored fields, and the indexes of single fields before the groups. -/
theorem buildEntity_ok (h : ds.buildEntity t = .ok e) :
    ∃ parts groups, List.Forall₂ (fun f p => ds.fieldPart t f = .ok p) t.fields parts ∧
      e.name = t.name ∧ e.fields = parts.filterMap FieldPart.field? ∧
      e.indexes = parts.filterMap FieldPart.index? ++ groups ∧
      groupIndexes t (e.fields.map (·.name)) (parts.filterMap FieldPart.derived?) = .ok groups ∧
      e.primaryKeys.length = 1 := by
  obtain ⟨parts, hparts, h⟩ := bind_eq_ok.mp h
  obtain ⟨groups, hgroups, h⟩ := bind_eq_ok.mp h
  dsimp only at h
  split at h
  · next hkey =>
    obtain rfl := Except.ok.inj h
    exact ⟨parts, groups, mapM_eq_ok_iff.mp hparts, rfl, rfl, rfl, hgroups, hkey⟩
  · cases h

/-- The name of an entity is that of its declaration. -/
theorem name_of_buildEntity (h : ds.buildEntity t = .ok e) : e.name = t.name := by
  obtain ⟨-, -, -, hname, -⟩ := buildEntity_ok h
  exact hname

/-- The name of a shape is that of its declaration. -/
theorem name_of_buildShape {s : JsonShape} (h : ds.buildShape t = .ok s) : s.name = t.name := by
  obtain ⟨fields, -, h⟩ := bind_eq_ok.mp h
  obtain rfl := Except.ok.inj h
  rfl

/-- The stored fields of an entity are those of the declared fields that are not derived, in their order. -/
theorem stored_fields (h : ds.buildEntity t = .ok e) :
    List.Forall₂ (fun f g => ds.buildField t f = .ok g) (t.fields.filter FieldDeclaration.isStored)
      e.fields := by
  obtain ⟨parts, groups, hparts, -, hfields, -⟩ := buildEntity_ok h
  rw [hfields]
  exact storedParts hparts

/-- A stored field of an entity is that of a declared field which is not derived. -/
theorem exists_field (h : ds.buildEntity t = .ok e) {g : EntityField} (hg : g ∈ e.fields) :
    ∃ f ∈ t.fields, f.derivedFrom? = none ∧ ds.buildField t f = .ok g := by
  obtain ⟨f, hf, hfg⟩ := exists_left_of_forall₂ (stored_fields h) hg
  obtain ⟨hmem, hstored⟩ := List.mem_filter.mp hf
  exact ⟨f, hmem, Option.isNone_iff_eq_none.mp hstored, hfg⟩

/-- The indexes of an entity are over its stored fields. -/
theorem indexes_over (h : ds.buildEntity t = .ok e) {spec : IndexSpec} (hspec : spec ∈ e.indexes) :
    spec.Over (e.fields.map (·.name)) := by
  obtain ⟨parts, groups, hparts, -, hfields, hindexes, hgroups, -⟩ := buildEntity_ok h
  rw [hindexes] at hspec
  rcases List.mem_append.mp hspec with hspec | hspec
  · obtain ⟨p, hp, hpspec⟩ := List.mem_filterMap.mp hspec
    obtain ⟨f, hf, hpart⟩ := exists_left_of_forall₂ hparts hp
    cases hderived : f.derivedFrom? with
    | some u =>
      obtain ⟨-, rfl⟩ := fieldPart_derived hderived hpart
      cases hpspec
    | none =>
      obtain ⟨g, index, hg, hindex, rfl⟩ := fieldPart_stored hderived hpart
      obtain rfl : index = some spec := hpspec
      have hspecFields := fields_of_fieldIndex hindex
      refine ⟨by simp [hspecFields], by simp [hspecFields], ?_⟩
      intro name hname
      rw [hspecFields, List.mem_singleton] at hname
      rw [hfields]
      exact List.mem_map.mpr ⟨g, List.mem_filterMap.mpr ⟨_, hp, rfl⟩, (buildField_ok hg).1.trans hname.symm⟩
  · exact groupIndexes_ok hgroups spec hspec

/-- The lookup of a field finds the stored field of the first declared field of that name, if that one is
stored. -/
theorem field?_of_find (h : ds.buildEntity t = .ok e) {name : String} {c : FieldDeclaration}
    (hc : (t.fields.find? fun f => f.name == name) = some c) (hstored : c.derivedFrom? = none) :
    ∃ g, e.field? name = some g ∧ ds.buildField t c = .ok g := by
  obtain ⟨parts, groups, hparts, -, hfields, -⟩ := buildEntity_ok h
  rw [Entity.field?, hfields]
  exact find_stored hparts hc hstored

end Declarations

namespace Declarations.Yields

variable {ds : Declarations} {d : Document} {m : Model}

/-- Declarations that yield a model are sound. -/
theorem sound (h : ds.Yields d m) : ds.Sound :=
  (Declarations.ofDocument_eq_ok h.document).1

/-- The entities have the names of their declarations. -/
theorem entity_names (h : ds.Yields d m) :
    m.entities.map (·.name) = (ds.ofRole .entity).map (·.name) :=
  map_eq_map_of_forall₂ h.entities fun _ _ => name_of_buildEntity

/-- The entities have different names. -/
theorem nodup_entity_names (h : ds.Yields d m) : (m.entities.map (·.name)).Nodup := by
  rw [h.entity_names]
  exact h.sound.ofRole_nodup .entity

/-- The enumerations have the names of their declarations. -/
theorem enum_names (h : ds.Yields d m) :
    m.enums.map (·.name) = (ds.ofRole .enumeration).map (·.name) :=
  map_eq_map_of_forall₂ h.enums fun _ _ => name_of_buildEnum

/-- The shapes have the names of their declarations. -/
theorem shape_names (h : ds.Yields d m) :
    m.jsonShapes.map (·.name) = (ds.ofRole .shape).map (·.name) :=
  map_eq_map_of_forall₂ h.shapes fun _ _ => name_of_buildShape

/-- The declarations of a role are those of the document that have it, in their order. -/
theorem ofRole_eq (h : ds.Yields d m) (role : Role) :
    ds.ofRole role = d.types.filter fun t => t.role? = some role :=
  Declarations.ofRole_of_ofDocument h.document role

/-- An entity comes from the declaration that its name finds. -/
theorem exists_declaration (h : ds.Yields d m) {e : Entity} (he : e ∈ m.entities) :
    ∃ t ∈ ds.ofRole .entity, ds.buildEntity t = .ok e ∧ e.name = t.name ∧
      ds.entity? e.name = some t := by
  obtain ⟨t, ht, hbuild⟩ := exists_left_of_forall₂ h.entities he
  have hname := name_of_buildEntity hbuild
  exact ⟨t, ht, hbuild, hname, h.sound.entity?_eq_some.mpr ⟨ht, hname.symm⟩⟩

/-- The declaration of an entity has an entity of its name. -/
theorem exists_entity (h : ds.Yields d m) {t : TypeDeclaration} (ht : t ∈ ds.ofRole .entity) :
    ∃ e ∈ m.entities, ds.buildEntity t = .ok e ∧ e.name = t.name ∧ ds.entity? e.name = some t := by
  obtain ⟨e, he, hbuild⟩ := exists_right_of_forall₂ h.entities ht
  have hname := name_of_buildEntity hbuild
  exact ⟨e, he, hbuild, hname, h.sound.entity?_eq_some.mpr ⟨ht, hname.symm⟩⟩

/-- A name of an entity declaration is that of an entity. -/
theorem exists_named_entity (h : ds.Yields d m) {name : String} (hname : ds.has .entity name = true) :
    ∃ e ∈ m.entities, e.name = name := by
  obtain ⟨t, ht, rfl⟩ := has_iff.mp hname
  obtain ⟨e, he, -, hename, -⟩ := h.exists_entity ht
  exact ⟨e, he, hename⟩

/-- A name of an enumeration declaration is that of an enumeration. -/
theorem exists_named_enum (h : ds.Yields d m) {name : String}
    (hname : ds.has .enumeration name = true) : ∃ n ∈ m.enums, n.name = name := by
  obtain ⟨t, ht, rfl⟩ := has_iff.mp hname
  rw [← List.mem_map, h.enum_names]
  exact List.mem_map_of_mem ht

/-- A name of a shape declaration is that of a shape. -/
theorem exists_named_shape (h : ds.Yields d m) {name : String} (hname : ds.has .shape name = true) :
    ∃ s ∈ m.jsonShapes, s.name = name := by
  obtain ⟨t, ht, rfl⟩ := has_iff.mp hname
  rw [← List.mem_map, h.shape_names]
  exact List.mem_map_of_mem ht

/-- The declared fields go with the entities that they belong to. -/
theorem mem_declaredFields (h : ds.Yields d m) {e : Entity} {f : FieldDeclaration} :
    (e, f) ∈ declaredFields ds m.entities ↔
      e ∈ m.entities ∧ ∃ t, ds.entity? e.name = some t ∧ f ∈ t.fields := by
  constructor
  · intro hmem
    obtain ⟨e', he', hmem⟩ := List.mem_flatMap.mp hmem
    obtain ⟨t, -, -, -, hfind⟩ := h.exists_declaration he'
    rw [hfind] at hmem
    obtain ⟨f', hf', heq⟩ := List.mem_map.mp hmem
    obtain ⟨rfl, rfl⟩ := Prod.mk.inj heq
    exact ⟨he', t, hfind, hf'⟩
  · rintro ⟨he, t, hfind, hf⟩
    refine List.mem_flatMap.mpr ⟨e, he, ?_⟩
    rw [hfind]
    exact List.mem_map.mpr ⟨f, hf, rfl⟩

/-- A relation is what some declared field of some entity yields. -/
theorem mem_relations (h : ds.Yields d m) {r : Relation} :
    r ∈ m.relations ↔ ∃ e ∈ m.entities, ∃ t, ds.entity? e.name = some t ∧
      ∃ f ∈ t.fields, relationOf? m.entities e f = some r := by
  rw [h.relations, List.mem_filterMap]
  constructor
  · rintro ⟨⟨e, f⟩, hmem, hr⟩
    obtain ⟨he, t, hfind, hf⟩ := h.mem_declaredFields.mp hmem
    exact ⟨e, he, t, hfind, f, hf, hr⟩
  · rintro ⟨e, he, t, hfind, f, hf, hr⟩
    exact ⟨(e, f), h.mem_declaredFields.mpr ⟨he, t, hfind, hf⟩, hr⟩

end Declarations.Yields

end SchemaReconcile
