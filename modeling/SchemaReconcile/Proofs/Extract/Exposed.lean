import SchemaReconcile.Proofs.Compile.Relations
import SchemaReconcile.Proofs.Document.Directives
import SchemaReconcile.Proofs.Extract.WellFormed

/-!
# Names that a model exposes

A shape exposes the names of its members.  An entity exposes the names of its stored fields and those of the relations
that read keys of other entities backwards, which its derived fields yield (`Model.exposedNames`).  All of these are
names of declared fields: a shape exposes them in their order (`names_of_buildShape`), and an entity exposes the stored
ones before the derived ones (`exposedNames_perm`).

So exposed names are different exactly when no declaration of a shape or an entity repeats the name of a field
(`exposedNames_nodup_iff`).  No stage of the extraction asks for this.  The check of columns holds two references of one
name apart, and two other stored fields, but a reference has a column of its own form, derived fields have none, and
shapes are not checked.  The rules of schema texts do ask for it (`fieldNames_nodup_of_schemaText`).
-/

namespace SchemaReconcile

/-! ## Names of declared fields -/

/-- The names that an entity exposes: those of its stored fields, and those of its relations that hold no key. -/
def Model.exposedNames (m : Model) (e : Entity) : List String :=
  e.fields.map (·.name) ++ ((m.relationsFrom e.name).filter fun r => !r.isHolder).map (·.fieldName)

namespace Declarations

variable {ds : Declarations} {t : TypeDeclaration}

/-- A member of a shape keeps the name of its declaration. -/
theorem name_of_buildMember {f : FieldDeclaration} {member : ShapeMember} (h : ds.buildMember t f = .ok member) :
    member.name = f.name := by
  obtain ⟨kind?, -, h⟩ := bind_eq_ok.mp h
  cases kind? with
  | some kind => exact Except.ok.inj h ▸ rfl
  | none =>
    dsimp only at h
    split at h
    · exact Except.ok.inj h ▸ rfl
    · cases h

/-- A shape has the names of the declared fields. -/
theorem names_of_buildShape {s : JsonShape} (h : ds.buildShape t = .ok s) :
    s.fields.map (·.name) = t.fields.map (·.name) := by
  obtain ⟨fields, hfields, h⟩ := bind_eq_ok.mp h
  obtain rfl := Except.ok.inj h
  exact map_eq_map_of_forall₂ (mapM_eq_ok_iff.mp hfields) fun f member => name_of_buildMember

/-- An entity has the names of the declared fields that are not derived. -/
theorem names_of_buildEntity {e : Entity} (h : ds.buildEntity t = .ok e) :
    e.fields.map (·.name) = (t.fields.filter FieldDeclaration.isStored).map (·.name) :=
  map_eq_map_of_forall₂ (stored_fields h) fun _ _ hfield => (buildField_ok hfield).1

namespace Yields

variable {d : Document} {m : Model} {e : Entity}

/-- The relations of an entity that hold no key have the names of the derived fields. -/
theorem names_of_readers (h : ds.Yields d m) (hb : ds.Builds m t e) :
    ((m.relationsFrom e.name).filter fun r => !r.isHolder).map (·.fieldName) =
      (t.fields.filter fun f => !f.isStored).map (·.name) := by
  rw [Model.relationsFrom, h.filter_relations_source hb, List.filter_filterMap, List.map_filterMap,
    ← List.filterMap_eq_map, List.filterMap_filter]
  refine List.filterMap_congr fun f hf => ?_
  cases hu : f.derivedFrom? with
  | some u =>
    have hfound : relationOf? m.entities e f = some (inverseOf m.entities e f (backField u)) := by
      rw [relationOf?, hu]
    have hreads : (inverseOf m.entities e f (backField u)).isHolder = false :=
      beq_eq_false_iff_ne.mpr (inverseKind_ne_belongsTo m.entities f.type.name (backField u))
    have hname : (inverseOf m.entities e f (backField u)).fieldName = f.name := rfl
    simp [FieldDeclaration.isStored, hu, hfound, hreads, hname]
  | none =>
    obtain ⟨g, -, hbuild⟩ := exists_right_of_forall₂ (stored_fields hb.built)
      (List.mem_filter.mpr ⟨hf, by simp [FieldDeclaration.isStored, hu]⟩)
    have hholds : (relationOf? m.entities e f).filter (fun r => !r.isHolder) = none := by
      rw [relationOf?_stored hu hbuild, Option.filter_eq_none_iff]
      intro r hr
      simp [(Entity.foundRelation?_eq_some hr).1]
    simp [hholds, FieldDeclaration.isStored, hu]

/-- An entity exposes the names of its declared fields. -/
theorem exposedNames_perm (h : ds.Yields d m) (hb : ds.Builds m t e) :
    (m.exposedNames e).Perm (t.fields.map (·.name)) := by
  rw [Model.exposedNames, names_of_buildEntity hb.built, h.names_of_readers hb, ← List.map_append]
  exact (List.filter_append_perm FieldDeclaration.isStored t.fields).map _

end Yields

end Declarations

/-- Stored fields of one name differ in what they are: no two of them are references, and no two are something else. -/
theorem Model.SoundEntity.nodup_names_of_kind {m : Model} {e : Entity} (h : m.SoundEntity e) (reference : Bool) :
    ((e.fields.filter fun f => f.isReference == reference).map (·.name)).Nodup := by
  refine List.Nodup.map_on (fun f hf g hg hname => ?_) (h.columns.nodup.of_map.filter _)
  obtain ⟨hf, hfkind⟩ := List.mem_filter.mp hf
  obtain ⟨hg, hgkind⟩ := List.mem_filter.mp hg
  exact h.eq_of_name hf hg hname ((beq_iff_eq.mp hfkind).trans (beq_iff_eq.mp hgkind).symm)

/-! ## Schema texts -/

/-- No definition of a type in a document that keeps the rules repeats the name of a field. -/
theorem Sdl.fieldNames_nodup_of_valid {env : Sdl.Environment} {defs : List Sdl.Definition}
    (hvalid : Sdl.valid env defs = true) {td : Sdl.TypeDefinition} (htd : .type td ∈ defs) :
    td.body.fieldNames.Nodup := by
  simp only [valid, uniqueNames, Bool.and_eq_true] at hvalid
  obtain ⟨⟨⟨⟨⟨⟨⟨⟨-, ⟨⟨-, hfields⟩, -⟩, -⟩, -⟩, -⟩, -⟩, -⟩, -⟩, -⟩, -⟩ := hvalid
  have hpart : td ∈ defs.filterMap Definition.typePart? := List.mem_filterMap.mpr ⟨_, htd, rfl⟩
  exact ((List.nodup_flatMap.mp (nodup_of_allDistinct hfields)).1 td hpart).of_map

/-- No declaration of a schema text repeats the name of a field. -/
theorem fieldNames_nodup_of_schemaText {text : String} {d : Document} (h : Document.ofSchemaText text = .ok d) :
    ∀ t ∈ d.types, (t.fields.map (·.name)).Nodup := by
  obtain ⟨defs, cs, hdefs, hcs, rfl⟩ := ofSchemaText_ok h
  intro t ht
  obtain ⟨td, htd, hcontributes⟩ := exists_definition_of_mem_types hcs ht
  cases hcontributes with
  | enumeration => exact List.nodup_nil
  | @object interfaces fields directives declared hbody hdirectives hfields =>
    have hnames : declared.map (·.name) = fields.map (·.name) :=
      map_eq_map_of_forall₂ hfields fun f g hfg => (fieldDeclaration_ok hfg).1
    have hnodup := Sdl.fieldNames_nodup_of_valid (readDefinitions_ok hdefs).2 htd
    rw [Sdl.TypeBody.fieldNames, hbody] at hnodup
    rw [hnames]
    exact (List.nodup_append.mp hnodup).1

/-! ## Models -/

/-- All names that a model exposes in one place are different. -/
structure Model.ExposedApart (m : Model) : Prop where
  shapes : ∀ s ∈ m.jsonShapes, (s.fields.map (·.name)).Nodup
  entities : ∀ e ∈ m.entities, (m.exposedNames e).Nodup

/-- The declarations of a document whose fields a model exposes. -/
def TypeDeclaration.IsExposed (t : TypeDeclaration) : Prop := t.role? = some .shape ∨ t.role? = some .entity

/-- The names that the shapes and entities of a model expose are those of the fields of their declarations. -/
theorem Declarations.Yields.exposed {ds : Declarations} {d : Document} {m : Model} (h : ds.Yields d m) :
    List.Forall₂ (fun t s => s.fields.map (·.name) = t.fields.map (·.name))
      (d.types.filter fun t => t.role? = some .shape) m.jsonShapes ∧
    List.Forall₂ (fun t e => (m.exposedNames e).Perm (t.fields.map (·.name)))
      (d.types.filter fun t => t.role? = some .entity) m.entities :=
  ⟨(h.ofRole_eq .shape ▸ h.shapes).imp fun _ _ => Declarations.names_of_buildShape,
    h.builds.imp fun _ _ => h.exposedNames_perm⟩

/-- Exposed names are different exactly when no declaration of a shape or an entity repeats the name of a field. -/
theorem Declarations.Yields.exposedApart_iff {ds : Declarations} {d : Document} {m : Model} (h : ds.Yields d m) :
    m.ExposedApart ↔ ∀ t ∈ d.types, t.IsExposed → (t.fields.map (·.name)).Nodup := by
  obtain ⟨hshapes, hentities⟩ := h.exposed
  constructor
  · rintro hapart t ht (hrole | hrole)
    · obtain ⟨s, hs, hnames⟩ :=
        exists_right_of_forall₂ hshapes (List.mem_filter.mpr ⟨ht, by simpa using hrole⟩)
      exact hnames ▸ hapart.shapes s hs
    · obtain ⟨e, he, hperm⟩ :=
        exists_right_of_forall₂ hentities (List.mem_filter.mpr ⟨ht, by simpa using hrole⟩)
      exact hperm.nodup_iff.mp (hapart.entities e he)
  · refine fun hdeclared => ⟨fun s hs => ?_, fun e he => ?_⟩
    · obtain ⟨t, ht, hnames⟩ := exists_left_of_forall₂ hshapes hs
      obtain ⟨ht, hrole⟩ := List.mem_filter.mp ht
      exact hnames ▸ hdeclared t ht (.inl (by simpa using hrole))
    · obtain ⟨t, ht, hperm⟩ := exists_left_of_forall₂ hentities he
      obtain ⟨ht, hrole⟩ := List.mem_filter.mp ht
      exact hperm.nodup_iff.mpr (hdeclared t ht (.inr (by simpa using hrole)))

/-- A model exposes the names of declared fields.  They are different exactly when no declaration of a shape or an
entity repeats one, as in every document of a schema text.  In any document, stored fields of one name can only be a
reference and something else. -/
theorem exposed_names_iff {d : Document} {m : Model} (hextract : extract d = .ok m) :
    (m.ExposedApart ↔ ∀ t ∈ d.types, t.IsExposed → (t.fields.map (·.name)).Nodup) ∧
    (∀ text, Document.ofSchemaText text = .ok d → m.ExposedApart) ∧
    (∀ e ∈ m.entities, ∀ reference, ((e.fields.filter fun f => f.isReference == reference).map (·.name)).Nodup) ∧
    List.Forall₂ (fun t s => s.fields.map (·.name) = t.fields.map (·.name))
      (d.types.filter fun t => t.role? = some .shape) m.jsonShapes ∧
    List.Forall₂ (fun t e => (m.exposedNames e).Perm (t.fields.map (·.name)))
      (d.types.filter fun t => t.role? = some .entity) m.entities := by
  obtain ⟨ds, hyields⟩ := extract_ok hextract
  refine ⟨hyields.exposedApart_iff, fun text htext => ?_, fun e he reference => ?_, hyields.exposed⟩
  · exact hyields.exposedApart_iff.mpr fun t ht _ => fieldNames_nodup_of_schemaText htext t ht
  · exact (hyields.soundEntity he).nodup_names_of_kind reference

/-- A shelf exposes its identifier and its books. -/
theorem exposed_names_iff_shelfModel : extract shelfDocument = .ok shelfModel ∧ shelfModel.ExposedApart ∧
    ∃ e ∈ shelfModel.entities, shelfModel.exposedNames e = ["id", "books"] := by
  have hextract : extract shelfDocument = .ok shelfModel := eq_ok_of_toOption (by decide +kernel)
  have hdeclared : ∀ t ∈ shelfDocument.types, (t.fields.map (·.name)).Nodup := by decide +kernel
  exact ⟨hextract, (exposed_names_iff hextract).1.mpr fun t ht _ => hdeclared t ht, by decide +kernel⟩

/-- Addresses with two cities, and authors whose name stands for their posts as well. -/
def repeatingDocument : Document where
  types :=
    [ { kind := .object, name := "Address", directives := [{ name := "jsonField" }]
        fields := [{ name := "city", type := { name := "String" } }, { name := "city", type := { name := "Int" } }] },
      { kind := .object, name := "Author", directives := [{ name := "entity" }]
        fields :=
          [ { name := "id", type := { name := "ID", nullable := false } },
            { name := "name", type := { name := "String" } },
            { name := "name", type := { name := "Post", isArray := true }
              directives := [{ name := "derivedFrom"
                               arguments := [(.text "field", .text "author")] }] } ] },
      { kind := .object, name := "Post", directives := [{ name := "entity" }]
        fields :=
          [ { name := "id", type := { name := "ID", nullable := false } },
            { name := "author", type := { name := "Author" } } ] } ]

/-- The model of these addresses and authors. -/
def repeatingModel : Model := (extract repeatingDocument).toOption.getD {}

/-- The shape of an address exposes the city twice, and an author exposes its name twice. -/
theorem names_repeated : ∃ m, extract repeatingDocument = .ok m ∧
    (∃ s ∈ m.jsonShapes, s.fields.map (·.name) = ["city", "city"]) ∧
    ∃ e ∈ m.entities, e.fields.map (·.name) = ["id", "name"] ∧
      ∃ r ∈ m.relationsFrom e.name, r.kind = .hasMany ∧ r.fieldName = "name" :=
  ⟨repeatingModel, eq_ok_of_toOption (by decide +kernel), by decide +kernel, by decide +kernel⟩

end SchemaReconcile
