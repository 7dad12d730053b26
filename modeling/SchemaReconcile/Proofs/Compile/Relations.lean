import SchemaReconcile.Proofs.Compile.Entities

/-!
# Relations and the keys that they are about

A document calls for relations field by field (`Document.calledRelations`): a derived field reads a key
backwards, and any other field that has an entity for its type holds a key.  The inferred relations are found
in the same order, but a field that is not derived is looked up by its name among the stored fields of its
entity.  So the two lists agree exactly when no two stored fields of an entity share a name
(`relations_exact`).  Two fields may share a name when one of them is a reference, since their columns differ
then; the key of the reference is found twice if the reference stands first, and not at all if it does not.

The relations that read a key backwards do not depend on this.  Whatever relations there are, each finds one
foreign key in the compiled owner.
-/

namespace SchemaReconcile

/-! ## What a document calls for -/

/-- The relation that a declared field of an entity calls for. -/
def TypeDeclaration.calledRelation? (t : TypeDeclaration) (m : Model) (f : FieldDeclaration) :
    Option Relation :=
  match f.derivedFrom? with
  | some u => some
      { source := t.name, target := f.type.name,
        kind := inverseKind m.entities f.type.name (backField u),
        foreignKey := EntityField.keyName (backField u), fieldName := f.name }
  | none =>
    if (m.entity? f.type.name).isSome then some
      { source := t.name, target := f.type.name, kind := .belongsTo,
        foreignKey := EntityField.keyName f.name, fieldName := f.name }
    else none

/-- The relation that a declared field calls for starts at its entity. -/
theorem TypeDeclaration.source_of_calledRelation (t : TypeDeclaration) {m : Model}
    {f : FieldDeclaration} {r : Relation} (h : t.calledRelation? m f = some r) : r.source = t.name := by
  unfold calledRelation? at h
  split at h
  · exact Option.some.inj h ▸ rfl
  · split at h
    · exact Option.some.inj h ▸ rfl
    · cases h

/-- The relation that a declared field yields starts at its entity. -/
theorem source_of_relationOf {entities : List Entity} {e : Entity} {f : FieldDeclaration} {r : Relation}
    (h : relationOf? entities e f = some r) : r.source = e.name := by
  unfold relationOf? at h
  split at h
  · exact Option.some.inj h ▸ rfl
  · split at h
    · split at h
      · exact Option.some.inj h ▸ rfl
      · cases h
    · cases h

/-- The relations that a document calls for, entity by entity and field by field. -/
def Document.calledRelations (d : Document) (m : Model) : List Relation :=
  (d.types.filter fun t => t.role? = some .entity).flatMap fun t =>
    t.fields.filterMap (t.calledRelation? m)

namespace Relation

/-- Whether a relation holds its key itself. -/
def isHolder (r : Relation) : Bool := r.kind == .belongsTo

/-- Whether the key of a relation is that of a certain field of an entity. -/
def isAbout (r : Relation) (entity field : String) : Bool :=
  r.keyOwner == entity && r.foreignKey == EntityField.keyName field

/-- A relation is about a reference field of the owner of its key, and finds this one foreign key when the owner
is compiled.  If it reads the key backwards, it is to one exactly when the field is unique. -/
structure FindsKey (m : Model) (r : Relation) (e : Entity) (f : EntityField) : Prop where
  owner : e ∈ m.entities ∧ e.name = r.keyOwner
  field : f ∈ e.fields ∧ f.type = .reference r.keyTarget
  foreignKey : r.foreignKey = EntityField.keyName f.name
  compiled : ∀ schema, ∃ c g, e.compile ⟨schema, m.enums.map (·.name)⟩ = .ok c ∧
    (c.fields.filter fun k => k.column == Naming.snakeCase r.foreignKey && k.isForeignKey) = [g] ∧
    g.declared = f ∧ (r.isHolder = false → (r.kind = .hasOne ↔ g.flags.unique = some true))

/-- A relation that holds its key is about a field of its source. -/
theorem isAbout_of_isHolder {r : Relation} (h : r.isHolder = true) (entity field : String) :
    r.isAbout entity field = (r.source == entity && r.foreignKey == EntityField.keyName field) := by
  rw [isAbout, keyOwner, if_pos (beq_iff_eq.mp h)]

/-- A relation that holds the key of a field is kept for the name of this field only. -/
theorem filter_isAbout_of_holds {r? : Option Relation} {entity field name : String}
    (h : ∀ r, r? = some r →
      r.isHolder = true ∧ r.source = entity ∧ r.foreignKey = EntityField.keyName field) :
    r?.filter (fun r => r.isHolder && r.isAbout entity name) = if field == name then r? else none := by
  cases r? with
  | none => simp
  | some r =>
    obtain ⟨hholder, hsource, hkey⟩ := h r rfl
    rw [Option.filter_some, isAbout_of_isHolder hholder, hholder, hsource, hkey]
    simp [EntityField.keyName_injective.eq_iff]

end Relation

/-- The relations that hold the key of a field are among those that start at its entity. -/
theorem filter_isAbout (relations : List Relation) (entity field : String) :
    (relations.filter fun r => r.isHolder && r.isAbout entity field) =
      (relations.filter fun r => r.source == entity).filter fun r =>
        r.isHolder && r.isAbout entity field := by
  rw [List.filter_filter]
  refine List.filter_congr fun r _ => ?_
  cases hholder : r.isHolder with
  | false => rfl
  | true =>
    rw [Relation.isAbout_of_isHolder hholder]
    cases r.source == entity <;> simp

/-- The relation that a stored field calls for: a reference has one. -/
def Entity.keyRelation? (e : Entity) (g : EntityField) : Option Relation :=
  g.type.reference?.map fun target => belongsToOf e target g.name

/-- The relation that is found for a stored field, by its name. -/
def Entity.foundRelation? (e : Entity) (g : EntityField) : Option Relation :=
  (e.field? g.name).bind e.keyRelation?

/-! ## Stored fields -/

/-- Fields of one name have one column if both are references, or neither is. -/
theorem EntityField.columnName_congr {f g : EntityField} (hname : f.name = g.name)
    (hreference : f.isReference = g.isReference) : f.columnName = g.columnName := by
  simp only [columnName, storedName, foreignKey?, hname, hreference]

namespace Entity

variable {e : Entity} {r : Relation} {g : EntityField}

/-- The relation of a stored field holds the key of this field. -/
theorem keyRelation?_eq_some (h : e.keyRelation? g = some r) :
    r.isHolder = true ∧ r.source = e.name ∧ r.foreignKey = EntityField.keyName g.name := by
  obtain ⟨target, -, rfl⟩ := Option.map_eq_some_iff.mp h
  exact ⟨rfl, rfl, rfl⟩

/-- The relation that is found for a stored field holds the key of a field with its name. -/
theorem foundRelation?_eq_some (h : e.foundRelation? g = some r) :
    r.isHolder = true ∧ r.source = e.name ∧ r.foreignKey = EntityField.keyName g.name := by
  obtain ⟨s, hs, hr⟩ := Option.bind_eq_some_iff.mp h
  have hname : s.name = g.name := by simpa using List.find?_some hs
  rw [← hname]
  exact keyRelation?_eq_some hr

/-- A stored field calls for a relation when it is a reference. -/
theorem isSome_keyRelation? (e : Entity) (g : EntityField) :
    (e.keyRelation? g).isSome = g.isReference := by
  rw [keyRelation?, Option.isSome_map, EntityField.isReference]

/-- The relation of a reference. -/
theorem keyRelation?_of_reference (e : Entity) {target : String} (h : g.type = .reference target) :
    e.keyRelation? g = some (belongsToOf e target g.name) := by
  rw [keyRelation?, h]
  rfl

/-- Where names are different, the relation that is found for a field is its own. -/
theorem foundRelation?_of_nodup (h : (e.fields.map (·.name)).Nodup) (hg : g ∈ e.fields) :
    e.foundRelation? g = e.keyRelation? g := by
  have hfind : e.field? g.name = some g := find?_of_nodup EntityField.name h hg
  rw [foundRelation?, hfind, Option.bind_some]

/-- The relations that are found for the fields of one name: the same for each. -/
theorem filterMap_foundRelation? (name : String) :
    (e.fields.filter (·.name == name)).filterMap e.foundRelation? =
      (e.fields.filter (·.name == name)).filterMap fun _ => (e.field? name).bind e.keyRelation? := by
  refine List.filterMap_congr fun g hg => ?_
  have hname : g.name = name := by simpa using (List.mem_filter.mp hg).2
  rw [foundRelation?, hname]

/-- The key of a reference is found once exactly when no other stored field has its name. -/
theorem filterMap_foundRelation?_eq_singleton {f : EntityField} (hf : f ∈ e.fields) {target : String}
    (htype : f.type = .reference target) :
    (e.fields.filter (·.name == f.name)).filterMap e.foundRelation? = [belongsToOf e target f.name] ↔
      e.fields.filter (·.name == f.name) = [f] := by
  have hmem : f ∈ e.fields.filter (·.name == f.name) := List.mem_filter.mpr ⟨hf, by simp⟩
  rw [filterMap_foundRelation?]
  constructor
  · intro h
    cases hfound : (e.field? f.name).bind e.keyRelation? with
    | none => simp [hfound] at h
    | some r =>
      have hlength : (e.fields.filter (·.name == f.name)).length = 1 := by
        simpa [hfound] using congrArg List.length h
      obtain ⟨g, hg⟩ := List.length_eq_one_iff.mp hlength
      rw [hg] at hmem ⊢
      rw [List.mem_singleton.mp hmem]
  · intro h
    have hfind : e.field? f.name = some f := by
      rw [field?, ← List.head?_filter, h]
      rfl
    rw [h, hfind, Option.bind_some, e.keyRelation?_of_reference htype]
    rfl

end Entity

namespace Model.SoundEntity

variable {m : Model} {e : Entity} {f g : EntityField}

/-- Two references of one name are the same, and so are two fields of one name that are none. -/
theorem eq_of_name (h : m.SoundEntity e) (hf : f ∈ e.fields) (hg : g ∈ e.fields)
    (hname : f.name = g.name) (hreference : f.isReference = g.isReference) : f = g :=
  h.eq_of_columnName hf hg (EntityField.columnName_congr hname hreference)

/-- The key of a reference is called for once. -/
theorem filterMap_keyRelation? (h : m.SoundEntity e) (hf : f ∈ e.fields) {target : String}
    (htype : f.type = .reference target) :
    (e.fields.filter (·.name == f.name)).filterMap e.keyRelation? = [belongsToOf e target f.name] := by
  have hrefers : f.isReference = true := f.isReference_iff.mpr ⟨_, htype⟩
  have honly : (e.fields.filter (·.name == f.name)).filter EntityField.isReference = [f] := by
    rw [List.filter_filter]
    refine filter_eq_singleton h.columns.nodup.of_map hf fun k hk => ?_
    rw [Bool.and_eq_true, beq_iff_eq]
    constructor
    · rintro ⟨hkrefers, hkname⟩
      exact h.eq_of_name hk hf hkname (hkrefers.trans hrefers.symm)
    · rintro rfl
      exact ⟨hrefers, rfl⟩
  rw [← filterMap_filter_of_isSome fun k => e.isSome_keyRelation? k, honly,
    List.filterMap_cons_some (e.keyRelation?_of_reference htype), List.filterMap_nil]

/-- Where each key is found as it is called for, no two stored fields share a name. -/
theorem nodup_names (h : m.SoundEntity e)
    (hsame : ∀ name, (e.fields.filter (·.name == name)).filterMap e.foundRelation? =
      (e.fields.filter (·.name == name)).filterMap e.keyRelation?) :
    (e.fields.map (·.name)).Nodup := by
  have halone : ∀ k ∈ e.fields, k.isReference = true → ∀ l ∈ e.fields, l.name = k.name → l = k := by
    intro k hk hrefers l hl hname
    obtain ⟨target, htype⟩ := k.isReference_iff.mp hrefers
    have hfound := (Entity.filterMap_foundRelation?_eq_singleton hk htype).mp
      ((hsame k.name).trans (h.filterMap_keyRelation? hk htype))
    have hmem : l ∈ e.fields.filter (·.name == k.name) := List.mem_filter.mpr ⟨hl, by simpa using hname⟩
    rw [hfound] at hmem
    exact List.mem_singleton.mp hmem
  rw [List.nodup_map_iff_inj_on h.columns.nodup.of_map]
  intro k hk l hl hname
  cases hkrefers : k.isReference with
  | true => exact (halone k hk hkrefers l hl hname.symm).symm
  | false =>
    cases hlrefers : l.isReference with
    | true => exact halone l hl hlrefers k hk hname
    | false => exact h.eq_of_name hk hl hname (hkrefers.trans hlrefers.symm)

end Model.SoundEntity

/-! ## Declared fields -/

/-- An entity of a model is built from a declaration that its name finds. -/
structure Declarations.Builds (ds : Declarations) (m : Model) (t : TypeDeclaration) (e : Entity) :
    Prop where
  mem : e ∈ m.entities
  built : ds.buildEntity t = .ok e
  name : e.name = t.name
  found : ds.entity? e.name = some t

namespace Declarations.Yields

variable {ds : Declarations} {d : Document} {m : Model} {t : TypeDeclaration} {e : Entity}
  {f : FieldDeclaration} {g : EntityField}

/-- A declared field that is stored calls for the relation of its stored field. -/
theorem calledRelation?_stored (h : ds.Yields d m) (hname : e.name = t.name)
    (hstored : f.derivedFrom? = none) (hbuild : ds.buildField t f = .ok g) :
    t.calledRelation? m f = e.keyRelation? g := by
  obtain ⟨hgname, htyped⟩ := buildField_ok hbuild
  have hcalled : t.calledRelation? m f = if (m.entity? f.type.name).isSome then
      some (belongsToOf e f.type.name g.name) else none := by
    rw [TypeDeclaration.calledRelation?, hstored, belongsToOf, hname, hgname]
  rw [hcalled]
  by_cases hentity : (m.entity? f.type.name).isSome = true
  · obtain ⟨n, hn, hnname⟩ := List.find?_isSome.mp hentity
    obtain ⟨t', ht', -, hnt, -⟩ := h.exists_declaration hn
    have hhas : ds.has .entity f.type.name = true :=
      has_iff.mpr ⟨t', ht', hnt.symm.trans (by simpa using hnname)⟩
    rw [if_pos hentity, e.keyRelation?_of_reference (h.sound.typed_entity hhas htyped)]
  · rw [if_neg hentity, Entity.keyRelation?]
    cases htype : g.type with
    | reference target =>
      rw [htype] at htyped
      obtain ⟨n, hn, hnname⟩ := h.exists_named_entity htyped.2
      exact absurd (List.find?_isSome.mpr ⟨n, hn, by simpa using hnname⟩) hentity
    | _ => rfl

/-- A declared field that is stored yields the relation that is found for its stored field. -/
theorem relationOf?_stored (hstored : f.derivedFrom? = none) (hbuild : ds.buildField t f = .ok g) :
    relationOf? m.entities e f = e.foundRelation? g := by
  obtain ⟨hgname, -⟩ := buildField_ok hbuild
  rw [relationOf?, hstored, Entity.foundRelation?, hgname]
  dsimp only
  cases e.field? f.name with
  | none => rfl
  | some stored =>
    rw [Option.bind_some, Entity.keyRelation?]
    dsimp only
    cases stored.type <;> rfl

/-- A derived field yields the relation that it calls for, which reads a key backwards. -/
theorem relationOf?_derived (hname : e.name = t.name) {u : DirectiveUsage}
    (hderived : f.derivedFrom? = some u) :
    ∃ r, relationOf? m.entities e f = some r ∧ t.calledRelation? m f = some r ∧
      r.isHolder = false := by
  refine ⟨inverseOf m.entities e f (backField u), ?_, ?_, ?_⟩
  · rw [relationOf?, hderived]
  · rw [TypeDeclaration.calledRelation?, hderived, inverseOf, hname]
  · rw [Relation.isHolder, inverseOf, beq_eq_false_iff_ne]
    exact inverseKind_ne_belongsTo m.entities f.type.name (backField u)

/-- A declared field yields what it calls for if it is derived; if it is stored, the one is found by the name of
its stored field and the other is that of the field itself. -/
theorem relationOf?_cases (h : ds.Yields d m) (hb : ds.Builds m t e) (hf : f ∈ t.fields) :
    (∃ r, relationOf? m.entities e f = some r ∧ t.calledRelation? m f = some r ∧
      r.isHolder = false) ∨
    ∃ g ∈ e.fields, relationOf? m.entities e f = e.foundRelation? g ∧
      t.calledRelation? m f = e.keyRelation? g := by
  cases hu : f.derivedFrom? with
  | some u => exact .inl (relationOf?_derived hb.name hu)
  | none =>
    obtain ⟨g, hg, hbuild⟩ := exists_right_of_forall₂ (stored_fields hb.built)
      (List.mem_filter.mpr ⟨hf, by simp [FieldDeclaration.isStored, hu]⟩)
    exact .inr ⟨g, hg, relationOf?_stored hu hbuild, h.calledRelation?_stored hb.name hu hbuild⟩

/-- The relations of a declaration that hold the key of a field are those of the stored fields of its
name. -/
theorem filter_holders (hbuild : ds.buildEntity t = .ok e) {yielded : FieldDeclaration → Option Relation}
    {stored : EntityField → Option Relation}
    (hstored : ∀ f g, f.derivedFrom? = none → ds.buildField t f = .ok g → yielded f = stored g)
    (hderived : ∀ f u, f.derivedFrom? = some u → ∃ r, yielded f = some r ∧ r.isHolder = false)
    (hholds : ∀ g r, stored g = some r →
      r.isHolder = true ∧ r.source = e.name ∧ r.foreignKey = EntityField.keyName g.name)
    (name : String) :
    ((t.fields.filterMap yielded).filter fun r => r.isHolder && r.isAbout e.name name) =
      (e.fields.filter (·.name == name)).filterMap stored := by
  have hleft : ∀ f ∈ t.fields, (yielded f).filter (fun r => r.isHolder && r.isAbout e.name name) =
      if f.isStored then (yielded f).filter (fun r => r.isHolder && r.isAbout e.name name)
      else none := by
    intro f _
    cases hu : f.derivedFrom? with
    | none => simp [FieldDeclaration.isStored, hu]
    | some u =>
      obtain ⟨r, hr, hholder⟩ := hderived f u hu
      simp [FieldDeclaration.isStored, hu, hr, hholder]
  have hright : (e.fields.filter (·.name == name)).filterMap stored =
      e.fields.filterMap fun g => if g.name == name then stored g else none := List.filterMap_filter
  rw [List.filter_filterMap, List.filterMap_congr hleft, ← List.filterMap_filter, hright]
  have hfields := forall₂_imp_of_mem (stored_fields hbuild) fun f hf g _ hfg =>
    And.intro (Option.isNone_iff_eq_none.mp (List.mem_filter.mp hf).2) hfg
  refine filterMap_eq_filterMap_of_forall₂ hfields fun f g hfg => ?_
  rw [hstored f g hfg.1 hfg.2, Relation.filter_isAbout_of_holds (hholds g)]

/-! ## Relations of a model -/

/-- The entities are built from the entity declarations of the document, one by one. -/
theorem builds (h : ds.Yields d m) :
    List.Forall₂ (ds.Builds m) (d.types.filter fun t => t.role? = some .entity) m.entities := by
  rw [← h.ofRole_eq]
  refine forall₂_imp_of_mem h.entities fun t ht e he hbuild => ?_
  have hname := name_of_buildEntity hbuild
  exact ⟨he, hbuild, hname, h.sound.entity?_eq_some.mpr ⟨ht, hname.symm⟩⟩

/-- The relations that the declared fields of an entity yield. -/
def foundFor (ds : Declarations) (m : Model) (e : Entity) : List Relation :=
  match ds.entity? e.name with
  | some t => t.fields.filterMap (relationOf? m.entities e)
  | none => []

/-- The relations that the declared fields of an entity yield start there. -/
theorem source_of_mem_foundFor {r : Relation} (hr : r ∈ foundFor ds m e) : r.source = e.name := by
  unfold foundFor at hr
  split at hr
  · obtain ⟨f, -, hf⟩ := List.mem_filterMap.mp hr
    exact source_of_relationOf hf
  · cases hr

/-- The relations are those of the entities, one after another. -/
theorem relations_eq_flatMap (h : ds.Yields d m) : m.relations = m.entities.flatMap (foundFor ds m) := by
  rw [h.relations, declaredFields, List.filterMap_flatMap]
  refine List.flatMap_congr fun e _ => ?_
  unfold foundFor
  cases ds.entity? e.name with
  | none => rfl
  | some t => exact List.filterMap_map

/-- The relations of one entity. -/
theorem foundFor_eq (hb : ds.Builds m t e) :
    foundFor ds m e = t.fields.filterMap (relationOf? m.entities e) := by
  rw [foundFor, hb.found]

/-- The relations that start at an entity are those of its declared fields. -/
theorem filter_relations_source (h : ds.Yields d m) (hb : ds.Builds m t e) :
    (m.relations.filter fun r => r.source == e.name) =
      t.fields.filterMap (relationOf? m.entities e) := by
  rw [h.relations_eq_flatMap, ← foundFor_eq hb]
  exact filter_flatMap_of_nodup Entity.name h.nodup_entity_names
    (fun _ _ _ hr => source_of_mem_foundFor hr) hb.mem

/-- The relations that a document calls for at an entity are those of its declared fields. -/
theorem filter_calledRelations_source (h : ds.Yields d m) (ht : t ∈ ds.ofRole .entity) :
    ((d.calledRelations m).filter fun r => r.source == t.name) =
      t.fields.filterMap (t.calledRelation? m) := by
  rw [Document.calledRelations, ← h.ofRole_eq]
  refine filter_flatMap_of_nodup TypeDeclaration.name (h.sound.ofRole_nodup .entity) ?_ ht
  intro a _ r hr
  obtain ⟨f, -, hf⟩ := List.mem_filterMap.mp hr
  exact a.source_of_calledRelation hf

/-- The relations that hold the key of a field are found for the stored fields of its name. -/
theorem filter_relations_isAbout (h : ds.Yields d m) (hb : ds.Builds m t e) (name : String) :
    (m.relations.filter fun r => r.isHolder && r.isAbout e.name name) =
      (e.fields.filter (·.name == name)).filterMap e.foundRelation? := by
  rw [filter_isAbout, h.filter_relations_source hb]
  refine filter_holders hb.built (fun f g => relationOf?_stored) ?_
    (fun g r => Entity.foundRelation?_eq_some) name
  intro f u hu
  obtain ⟨r, hr, -, hholder⟩ := relationOf?_derived (m := m) hb.name hu
  exact ⟨r, hr, hholder⟩

/-- The relations that are called for to hold the key of a field are those of the stored fields of its
name. -/
theorem filter_calledRelations_isAbout (h : ds.Yields d m) (hb : ds.Builds m t e) (name : String) :
    ((d.calledRelations m).filter fun r => r.isHolder && r.isAbout e.name name) =
      (e.fields.filter (·.name == name)).filterMap e.keyRelation? := by
  rw [filter_isAbout, hb.name, h.filter_calledRelations_source (h.sound.entity?_eq_some.mp hb.found).1,
    ← hb.name]
  refine filter_holders hb.built (fun f g => h.calledRelation?_stored hb.name) ?_
    (fun g r => Entity.keyRelation?_eq_some) name
  intro f u hu
  obtain ⟨r, -, hr, hholder⟩ := relationOf?_derived (m := m) hb.name hu
  exact ⟨r, hr, hholder⟩

/-- The relations are those that the document calls for exactly when no two stored fields of an entity share a
name. -/
theorem relations_eq_iff (h : ds.Yields d m) :
    m.relations = d.calledRelations m ↔ ∀ e ∈ m.entities, (e.fields.map (·.name)).Nodup := by
  constructor
  · intro heq e he
    obtain ⟨t, -, hb⟩ := exists_left_of_forall₂ h.builds he
    refine (h.soundEntity he).nodup_names fun name => ?_
    rw [← h.filter_relations_isAbout hb, ← h.filter_calledRelations_isAbout hb, heq]
  · intro hnodup
    rw [h.relations_eq_flatMap, Document.calledRelations]
    refine (flatMap_eq_flatMap_of_forall₂ h.builds fun t e hb => ?_).symm
    rw [foundFor_eq hb]
    refine List.filterMap_congr fun f hf => ?_
    obtain ⟨r, hfound, hcalled, -⟩ | ⟨g, hg, hfound, hcalled⟩ := h.relationOf?_cases hb hf
    · rw [hfound, hcalled]
    · rw [hfound, hcalled, Entity.foundRelation?_of_nodup (hnodup e hb.mem) hg]

/-- The relations that read a key backwards are those that the document calls for. -/
theorem filter_readers (h : ds.Yields d m) :
    (m.relations.filter fun r => !r.isHolder) = (d.calledRelations m).filter fun r => !r.isHolder := by
  rw [h.relations_eq_flatMap, Document.calledRelations, List.filter_flatMap, List.filter_flatMap]
  refine (flatMap_eq_flatMap_of_forall₂ h.builds fun t e hb => ?_).symm
  rw [foundFor_eq hb, List.filter_filterMap, List.filter_filterMap]
  refine List.filterMap_congr fun f hf => ?_
  obtain ⟨r, hfound, hcalled, -⟩ | ⟨g, -, hfound, hcalled⟩ := h.relationOf?_cases hb hf
  · rw [hfound, hcalled]
  · rw [hfound, hcalled,
      Option.filter_eq_none_iff.mpr fun r hr => by simp [(Entity.keyRelation?_eq_some hr).1],
      Option.filter_eq_none_iff.mpr fun r hr => by simp [(Entity.foundRelation?_eq_some hr).1]]

/-- A key is read backwards at most once. -/
theorem length_readers_le_one (h : ds.Yields d m) (entity field : String) :
    (m.relations.filter fun r => !r.isHolder && r.isAbout entity field).length ≤ 1 := by
  have hapart := h.apart.filter fun r => !r.isHolder && r.isAbout entity field
  have hread : ∀ r ∈ m.relations.filter (fun r => !r.isHolder && r.isAbout entity field),
      r.kind ≠ .belongsTo ∧ r.target = entity ∧ r.foreignKey = EntityField.keyName field := by
    intro r hr
    have hr' := (List.mem_filter.mp hr).2
    simp only [Relation.isHolder, Relation.isAbout, Relation.keyOwner, Bool.and_eq_true,
      Bool.not_eq_true', beq_eq_false_iff_ne, beq_iff_eq] at hr'
    obtain ⟨hkind, howner, hkey⟩ := hr'
    rw [if_neg hkind] at howner
    exact ⟨hkind, howner, hkey⟩
  cases hlist : m.relations.filter fun r => !r.isHolder && r.isAbout entity field with
  | nil => simp
  | cons r rest =>
    cases rest with
    | nil => simp
    | cons q rest =>
      rw [hlist] at hapart hread
      obtain ⟨hrkind, hrtarget, hrkey⟩ := hread r List.mem_cons_self
      obtain ⟨hqkind, hqtarget, hqkey⟩ := hread q (List.mem_cons_of_mem _ List.mem_cons_self)
      have hne := (List.pairwise_cons.mp hapart).1 q List.mem_cons_self hrkind hqkind
      rw [hrtarget, hrkey, hqtarget, hqkey] at hne
      exact absurd rfl hne

/-- A relation that reads a key backwards is to one exactly when the indexes of the owner of the key call the
field unique. -/
theorem kind_eq_hasOne_iff (h : ds.Yields d m) {r : Relation} (hr : r ∈ m.relations)
    (hreads : r.isHolder = false) (he : e ∈ m.entities) (hname : e.name = r.keyOwner) {field : String}
    (hkey : r.foreignKey = EntityField.keyName field) :
    r.kind = .hasOne ↔ (e.indexFlags field).unique = some true := by
  obtain ⟨e', he', t, ht, f, -, hrelation⟩ := h.mem_relations.mp hr
  have hkind : r.kind ≠ .belongsTo := beq_eq_false_iff_ne.mp hreads
  obtain ⟨back, hsource, hback⟩ := exists_source_of_relationOf hrelation hkind
  obtain ⟨u, hu, hpair⟩ := Option.map_eq_some_iff.mp hsource
  obtain ⟨htarget, rfl⟩ := Prod.mk.inj hpair
  rw [relationOf?, hu] at hrelation
  obtain rfl := Option.some.inj hrelation
  have howner : e.name = f.type.name := by
    simpa [Relation.keyOwner, inverseOf, inverseKind_ne_belongsTo] using hname
  have hfield : backField u = field := EntityField.keyName_injective hkey
  have hfind := find?_of_nodup Entity.name h.nodup_entity_names he
  have hflags : inverseKind m.entities f.type.name (backField u) =
      if (e.indexFlags field).unique = some true then .hasOne else .hasMany := by
    rw [inverseKind, ← howner, hfind, hfield]
  rw [inverseOf, hflags]
  split <;> simp [*]

/-- Each relation finds the foreign key that it is about. -/
theorem exists_findsKey (h : ds.Yields d m) {r : Relation} (hr : r ∈ m.relations) :
    ∃ e f, r.FindsKey m e f := by
  obtain ⟨⟨e, he, hname, f, hf, htype, hkey⟩, -⟩ := h.soundRelation hr
  have hmem : f ∈ e.fields := List.mem_of_find?_eq_some hf
  refine ⟨e, f, ⟨he, hname⟩, ⟨hmem, htype⟩, hkey, fun schema => ?_⟩
  obtain ⟨c, hc⟩ := (h.soundEntity he).compiles ⟨schema, m.enums.map (·.name)⟩ rfl
  have hrefers : f.isReference = true := f.isReference_iff.mpr ⟨_, htype⟩
  obtain ⟨g, hg, hdeclared, hflags⟩ :=
    Entity.exists_only_keyField hc (h.soundEntity he).columns.nodup hmem hrefers
  rw [EntityField.columnName_of_reference htype, ← hkey] at hg
  refine ⟨c, g, hc, hg, hdeclared, fun hreads => ?_⟩
  rw [hflags]
  exact h.kind_eq_hasOne_iff hr hreads he hname hkey

end Declarations.Yields

/-! ## Exact relations -/

/-- Relations are inferred exactly, up to fields that share a name.

The relations of an extracted model are those that its document calls for, in their order, exactly when no two
stored fields of an entity share a name; those that read a key backwards are so in any case.  A reference has the
one relation that holds its key exactly when no other stored field of its entity has its name, and its key is
read backwards at most once.  Each relation finds the one foreign key that it is about. -/
theorem relations_exact {d : Document} {m : Model} (h : extract d = .ok m) :
    (m.relations = d.calledRelations m ↔ ∀ e ∈ m.entities, (e.fields.map (·.name)).Nodup) ∧
    ((m.relations.filter fun r => !r.isHolder) =
      (d.calledRelations m).filter fun r => !r.isHolder) ∧
    (∀ e ∈ m.entities, ∀ f ∈ e.fields, ∀ target, f.type = .reference target →
      ((m.relations.filter fun r => r.isHolder && r.isAbout e.name f.name) =
          [belongsToOf e target f.name] ↔
        e.fields.filter (·.name == f.name) = [f]) ∧
      (m.relations.filter fun r => !r.isHolder && r.isAbout e.name f.name).length ≤ 1) ∧
    ∀ r ∈ m.relations, ∃ e f, r.FindsKey m e f := by
  obtain ⟨ds, hyields⟩ := extract_ok h
  refine ⟨hyields.relations_eq_iff, hyields.filter_readers, ?_, fun r hr => hyields.exists_findsKey hr⟩
  intro e he f hf target htype
  obtain ⟨t, -, hb⟩ := exists_left_of_forall₂ hyields.builds he
  refine ⟨?_, hyields.length_readers_le_one e.name f.name⟩
  rw [hyields.filter_relations_isAbout hb]
  exact Entity.filterMap_foundRelation?_eq_singleton hf htype

/-- The relations of authors and profiles are those that their document calls for. -/
theorem relations_exact_profileModel :
    profileModel.relations = profileDocument.calledRelations profileModel ∧
      profileModel.relations.length = 2 :=
  ⟨(relations_exact extract_profileDocument).1.mpr (by decide +kernel), by decide +kernel⟩

/-- A book whose author is stored twice under one name: as a reference, and behind it as a text. -/
def twinDocument : Document where
  types :=
    [ { kind := .object, name := "Book", directives := [{ name := "entity" }]
        fields :=
          [ { name := "id", type := { name := "ID", nullable := false } },
            { name := "author", type := { name := "Author" } },
            { name := "author", type := { name := "String" } } ] },
      { kind := .object, name := "Author", directives := [{ name := "entity" }]
        fields := [{ name := "id", type := { name := "ID", nullable := false } }] } ]

/-- The model of the book: both fields find the reference. -/
def twinModel : Model where
  entities :=
    [ { name := "Book"
        fields :=
          [ { name := "id", type := .scalar .id, nullable := false },
            { name := "author", type := .reference "Author" },
            { name := "author", type := .scalar .string } ] },
      { name := "Author", fields := [{ name := "id", type := .scalar .id, nullable := false }] } ]
  relations := List.replicate 2
    { source := "Book", target := "Author", kind := .belongsTo, foreignKey := "authorId"
      fieldName := "author" }

/-- A text behind a reference of its name yields the relation of the reference again. -/
theorem reference_held_twice :
    extract twinDocument = .ok twinModel ∧
      twinModel.relations ≠ twinDocument.calledRelations twinModel ∧
      (twinModel.relations.filter fun r => r.isHolder && r.isAbout "Book" "author").length = 2 :=
  ⟨eq_ok_of_toOption (by decide +kernel), by decide +kernel, by decide +kernel⟩

end SchemaReconcile
