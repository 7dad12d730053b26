import SchemaReconcile.Proofs.Extract.Yield

/-!
# Sound models

An extracted model hangs together (`extract_sound`): names of entities, of enumerations and in the database
are apart, every name that a field, an index or a relation mentions is there, and the key that a relation is
about is a reference field of its owner.  Nothing that follows needs to know the document again, except for
the two completeness statements at the end: a reference field yields the relation that holds its key, and a
derived field the one that reads it.
-/

namespace SchemaReconcile

namespace Model

/-- An entity fits its model. -/
structure SoundEntity (m : Model) (e : Entity) : Prop where
  safeTable : Naming.isSafe e.tableName = true
  columns : e.ColumnsApart
  key : e.primaryKeys.length = 1
  enumeration : ∀ f ∈ e.fields, ∀ name, f.type = .enumeration name → ∃ n ∈ m.enums, n.name = name
  reference : ∀ f ∈ e.fields, ∀ name, f.type = .reference name → ∃ t ∈ m.entities, t.name = name
  indexes : ∀ spec ∈ e.indexes, ∀ name ∈ spec.fields, ∃ f ∈ e.fields, f.name = name

/-- A relation is about the key of a reference field of its owner. -/
structure SoundRelation (m : Model) (r : Relation) : Prop where
  owner : ∃ e ∈ m.entities, e.name = r.keyOwner ∧ ∃ f, e.field? f.name = some f ∧
    f.type = .reference r.keyTarget ∧ r.foreignKey = EntityField.keyName f.name
  target : ∃ e ∈ m.entities, e.name = r.keyTarget

/-- A model hangs together. -/
structure Sound (m : Model) : Prop where
  enums : (m.enums.map (·.name)).Nodup
  entities : (m.entities.map (·.name)).Nodup
  tables : (m.entities.map Entity.tableName).Nodup
  entity : ∀ e ∈ m.entities, m.SoundEntity e
  relation : ∀ r ∈ m.relations, m.SoundRelation r
  apart : m.relations.Pairwise ReadsApart

end Model

namespace Declarations.Yields

variable {ds : Declarations} {d : Document} {m : Model}

/-- The entities of an extracted model fit it. -/
theorem soundEntity (h : ds.Yields d m) {e : Entity} (he : e ∈ m.entities) : m.SoundEntity e := by
  obtain ⟨t, -, hbuild, -, -⟩ := h.exists_declaration he
  obtain ⟨-, hstorage⟩ := checkStorageNames_eq_ok_iff.mp h.storage
  obtain ⟨hsafe, -, hcolumns⟩ := hstorage e he
  obtain ⟨-, -, -, -, -, -, -, hkey⟩ := buildEntity_ok hbuild
  refine ⟨hsafe, hcolumns, hkey, ?_, ?_, ?_⟩
  · intro g hg name hname
    obtain ⟨f, -, -, hf⟩ := exists_field hbuild hg
    have htyped : ds.Typed f.type.name g.type := (buildField_ok hf).2
    rw [hname] at htyped
    obtain ⟨rfl, henum⟩ := htyped
    exact h.exists_named_enum henum
  · intro g hg name hname
    obtain ⟨f, -, -, hf⟩ := exists_field hbuild hg
    have htyped : ds.Typed f.type.name g.type := (buildField_ok hf).2
    rw [hname] at htyped
    obtain ⟨rfl, hentity⟩ := htyped
    exact h.exists_named_entity hentity
  · intro spec hspec name hname
    exact List.mem_map.mp ((indexes_over hbuild hspec).stored name hname)

/-- The relation that a reference field yields is about its own key. -/
theorem soundRelation_belongsTo (h : ds.Yields d m) {e : Entity} (he : e ∈ m.entities)
    {f : EntityField} {name target : String} (hf : e.field? name = some f)
    (htype : f.type = .reference target) : m.SoundRelation (belongsToOf e target f.name) := by
  have hname : f.name = name := by simpa using List.find?_some hf
  obtain ⟨t, ht, htname⟩ :=
    (h.soundEntity he).reference f (List.mem_of_find?_eq_some hf) target htype
  exact ⟨⟨e, he, rfl, f, by rw [hname, hf], htype, rfl⟩, ⟨t, ht, htname⟩⟩

/-- The relation that a derived field yields is about the key of the field that it points at. -/
theorem soundRelation_inverse (h : ds.Yields d m) {e : Entity} (he : e ∈ m.entities)
    {t : TypeDeclaration} (ht : ds.entity? e.name = some t) {f : FieldDeclaration} (hf : f ∈ t.fields)
    {u : DirectiveUsage} (hu : f.derivedFrom? = some u) :
    m.SoundRelation (inverseOf m.entities e f (backField u)) := by
  obtain ⟨htrole, htname⟩ := h.sound.entity?_eq_some.mp ht
  obtain ⟨e', he', hbuild, -, -⟩ := h.exists_entity htrole
  obtain ⟨parts, groups, hparts, -, -, -, -, -⟩ := buildEntity_ok hbuild
  obtain ⟨p, -, hpart⟩ := exists_right_of_forall₂ hparts hf
  obtain ⟨hcheck, -⟩ := fieldPart_derived hu hpart
  obtain ⟨target, c, htarget, hc, howner, hstored⟩ := checkDerived_ok hcheck
  obtain ⟨htargetRole, htargetName⟩ := h.sound.entity?_eq_some.mp htarget
  obtain ⟨o, ho, hobuild, honame, -⟩ := h.exists_entity htargetRole
  obtain ⟨g, hg, hgbuild⟩ := field?_of_find hobuild hc hstored
  have hgname : g.name = backField u := by simpa using List.find?_some hg
  have hentity : ds.has .entity c.type.name = true :=
    has_iff.mpr ⟨t, htrole, howner.symm⟩
  have htype : g.type = .reference c.type.name :=
    h.sound.typed_entity hentity (buildField_ok hgbuild).2
  have howned : (inverseOf m.entities e f (backField u)).keyOwner = f.type.name := by
    simp [Relation.keyOwner, inverseOf, inverseKind_ne_belongsTo]
  have hkept : (inverseOf m.entities e f (backField u)).keyTarget = e.name := by
    simp [Relation.keyTarget, inverseOf, inverseKind_ne_belongsTo]
  refine ⟨⟨o, ho, ?_, g, ?_, ?_, ?_⟩, ⟨e, he, hkept.symm⟩⟩
  · rw [howned, honame, htargetName]
  · rw [hgname, hg]
  · rw [hkept, htype, howner, htname]
  · rw [hgname]
    rfl

/-- The relations of an extracted model are about keys that are there. -/
theorem soundRelation (h : ds.Yields d m) {r : Relation} (hr : r ∈ m.relations) :
    m.SoundRelation r := by
  obtain ⟨e, he, t, ht, f, hf, hrelation⟩ := h.mem_relations.mp hr
  unfold relationOf? at hrelation
  split at hrelation
  · next u hu =>
    obtain rfl := Option.some.inj hrelation
    exact h.soundRelation_inverse he ht hf hu
  · split at hrelation
    · next stored hstored =>
      split at hrelation
      · next target htype =>
        obtain rfl := Option.some.inj hrelation
        exact h.soundRelation_belongsTo he hstored htype
      · cases hrelation
    · cases hrelation

end Declarations.Yields

/-- An extracted model is sound. -/
theorem extract_sound {d : Document} {m : Model} (h : extract d = .ok m) : m.Sound := by
  obtain ⟨ds, hyields⟩ := extract_ok h
  obtain ⟨htables, -⟩ := checkStorageNames_eq_ok_iff.mp hyields.storage
  refine ⟨?_, hyields.nodup_entity_names, htables, fun e he => hyields.soundEntity he,
    fun r hr => hyields.soundRelation hr, hyields.apart⟩
  rw [hyields.enum_names]
  exact hyields.sound.ofRole_nodup .enumeration

/-! ## Completeness of relations -/

/-- A reference field that is the first of its name yields the relation that holds its key. -/
theorem belongsTo_mem_relations {d : Document} {m : Model} (h : extract d = .ok m) {e : Entity}
    (he : e ∈ m.entities) {f : EntityField} {target : String} (hf : e.field? f.name = some f)
    (htype : f.type = .reference target) : belongsToOf e target f.name ∈ m.relations := by
  obtain ⟨ds, hyields⟩ := extract_ok h
  obtain ⟨t, -, hbuild, -, ht⟩ := hyields.exists_declaration he
  obtain ⟨c, hc, hstored, hcf⟩ := Declarations.exists_field hbuild (List.mem_of_find?_eq_some hf)
  refine hyields.mem_relations.mpr ⟨e, he, t, ht, c, hc, ?_⟩
  have hname : f.name = c.name := (Declarations.buildField_ok hcf).1
  rw [relationOf?, hstored]
  dsimp only
  rw [← hname, hf]
  dsimp only
  rw [htype]

/-- A derived field of an entity declaration yields the relation that reads the field it points at. -/
theorem inverse_mem_relations {d : Document} {m : Model} (h : extract d = .ok m)
    {t : TypeDeclaration} (ht : t ∈ d.types) (hrole : HasRole t .entity) {f : FieldDeclaration}
    (hf : f ∈ t.fields) {u : DirectiveUsage} (hu : f.derivedFrom? = some u) :
    ∃ e ∈ m.entities, e.name = t.name ∧ inverseOf m.entities e f (backField u) ∈ m.relations := by
  obtain ⟨ds, hyields⟩ := extract_ok h
  obtain ⟨-, -, hclassified⟩ := Declarations.ofDocument_eq_ok hyields.document
  have hmem : t ∈ ds.ofRole .entity :=
    Declarations.mem_ofRole.mpr ((mem_classified hclassified).mpr ⟨ht, hrole⟩)
  obtain ⟨e, he, -, hname, hfind⟩ := hyields.exists_entity hmem
  refine ⟨e, he, hname, hyields.mem_relations.mpr ⟨e, he, t, hfind, f, hf, ?_⟩⟩
  rw [relationOf?, hu]

/-! ## A document -/

/-- Authors with at most one profile each, and the mood of a profile. -/
def profileDocument : Document where
  types :=
    [ { kind := .object, name := "Author", directives := [{ name := "entity" }]
        fields :=
          [ { name := "id", type := { name := "ID", nullable := false } },
            { name := "profile", type := { name := "Profile" }
              directives := [{ name := "derivedFrom"
                               arguments := [(.text "field", .text "author")] }] } ] },
      { kind := .object, name := "Profile", directives := [{ name := "entity" }]
        fields :=
          [ { name := "id", type := { name := "ID", nullable := false } },
            { name := "author", type := { name := "Author", nullable := false }
              directives := [{ name := "index", arguments := [(.text "unique", .bool true)] }] },
            { name := "mood", type := { name := "Mood" } } ] },
      { kind := .enumeration, name := "Mood", values := ["CALM", "BUSY"] } ]

/-- The model of authors and profiles. -/
def profileModel : Model := (extract profileDocument).toOption.getD {}

/-- Authors and profiles have a model. -/
theorem extract_profileDocument : extract profileDocument = .ok profileModel :=
  eq_ok_of_toOption (by decide +kernel)

end SchemaReconcile
