import SchemaReconcile.Proofs.Compile.Columns

/-!
# Well-formed models

The stages after the extraction do not check a model again.  What they rely on is gathered here
(`Model.WellFormed`): names are apart, the entities and their stored fields are those that the document
declares, every name that is mentioned stands for something in the model, and each entity has one key, proper
indexes, and a table whose columns have different names.

The parts come from different stages.  Names are apart since the declarations were classified; types, keys and
indexes were checked while the entities were built; tables and columns were held apart afterwards.
-/

namespace SchemaReconcile

/-! ## What a model must be -/

/-- A name stands in a model for what a field holds: a scalar kind by its word, anything else by the name of
an enumeration, a shape or an entity that is there. -/
def Model.Stands (m : Model) (name : String) : FieldType → Prop
  | .scalar kind => FieldKind.ofName? name = some kind
  | .enumeration e => e = name ∧ ∃ n ∈ m.enums, n.name = name
  | .shape s => s = name ∧ ∃ n ∈ m.jsonShapes, n.name = name
  | .reference e => e = name ∧ ∃ n ∈ m.entities, n.name = name

/-- A declared field is stored in a model as a certain field. -/
structure StoredAs (m : Model) (f : FieldDeclaration) (g : EntityField) : Prop where
  name : g.name = f.name
  type : m.Stands f.type.name g.type
  nullable : g.nullable = f.type.nullable
  isArray : g.isArray = f.type.isArray
  description : g.description = f.description

/-- The fields, the key, the indexes and the columns of an entity are those of its declaration. -/
structure EntityOf (m : Model) (t : TypeDeclaration) (e : Entity) : Prop where
  name : e.name = t.name
  /-- The stored fields are the declared ones that are not derived, in their order. -/
  fields : List.Forall₂ (StoredAs m) (t.fields.filter FieldDeclaration.isStored) e.fields
  /-- There is one identifier, and it is no list. -/
  key : ∃ f, e.primaryKeys = [f] ∧ f.isArray = false
  /-- No reference is a list. -/
  single : ∀ f ∈ e.fields, f.isReference = true → f.isArray = false
  indexes : ∀ spec ∈ e.indexes, spec.Over (e.fields.map (·.name))
  /-- The entity compiles to its table, whose columns have different names, with timestamps or without. -/
  columns : ∀ schema timestamps, ∃ c, e.compile ⟨schema, m.enums.map (·.name)⟩ = .ok c ∧
    c.table = e.tableName ∧ ((c.columns timestamps).map (·.name)).Nodup

/-- A model is well formed, and it is that of a document. -/
structure Model.WellFormed (d : Document) (m : Model) : Prop where
  names : (m.entities.map (·.name) ++ m.enums.map (·.name) ++ m.jsonShapes.map (·.name)).Nodup
  tables : (m.entities.map Entity.tableName).Nodup
  entities : List.Forall₂ (EntityOf m) (d.types.filter fun t => t.role? = some .entity) m.entities
  nested : ∀ s ∈ m.jsonShapes, ∀ name ∈ s.nested, ∃ n ∈ m.jsonShapes, n.name = name

/-- The shapes of a well-formed model have different names. -/
theorem Model.WellFormed.shapeNames {d : Document} {m : Model} (h : m.WellFormed d) :
    (m.jsonShapes.map (·.name)).Nodup :=
  (List.nodup_append'.mp h.names).2.1

/-! ## Shapes -/

namespace Declarations

variable {ds : Declarations}

/-- A shape that is nested in a member is a declared one. -/
theorem has_shape_of_buildMember {owner : TypeDeclaration} {f : FieldDeclaration} {member : ShapeMember}
    {name : String} (h : ds.buildMember owner f = .ok member) (hname : member.type.shape? = some name) :
    ds.has .shape name = true := by
  obtain ⟨kind?, -, h⟩ := bind_eq_ok.mp h
  cases kind? with
  | some kind =>
    obtain rfl := Except.ok.inj h
    cases hname
  | none =>
    dsimp only at h
    split at h
    · next hshape =>
      obtain rfl := Except.ok.inj h
      exact Option.some.inj hname ▸ hshape
    · cases h

/-- The shapes that are nested in a shape are declared ones. -/
theorem has_shape_of_nested {t : TypeDeclaration} {s : JsonShape} (h : ds.buildShape t = .ok s)
    {name : String} (hname : name ∈ s.nested) : ds.has .shape name = true := by
  obtain ⟨fields, hfields, h⟩ := bind_eq_ok.mp h
  obtain rfl := Except.ok.inj h
  obtain ⟨member, hmember, hshape⟩ := List.mem_filterMap.mp hname
  obtain ⟨f, -, hbuild⟩ := exists_left_of_forall₂ (mapM_eq_ok_iff.mp hfields) hmember
  exact has_shape_of_buildMember hbuild hshape

/-- The word of a scalar kind is the type name that it was found by. -/
theorem ofName?_of_scalarKind {name : String} {kind : FieldKind}
    (h : ds.scalarKind? name = .ok (some kind)) : FieldKind.ofName? name = some kind := by
  unfold scalarKind? at h
  split at h
  · split at h
    · next found hfound =>
      obtain rfl := Option.some.inj (Except.ok.inj h)
      exact hfound
    · cases h
  · cases h

/-! ## Entities -/

namespace Yields

variable {d : Document} {m : Model}

/-- What a type name stands for among the declarations, it stands for in the model. -/
theorem stands (h : ds.Yields d m) {name : String} {type : FieldType} (htype : ds.Typed name type) :
    m.Stands name type := by
  cases type with
  | scalar kind => exact ofName?_of_scalarKind htype
  | enumeration e => exact ⟨htype.1, h.exists_named_enum htype.2⟩
  | shape s => exact ⟨htype.1, h.exists_named_shape htype.2⟩
  | reference e => exact ⟨htype.1, h.exists_named_entity htype.2⟩

/-- A field that was built is stored as its declaration says. -/
theorem storedAs (h : ds.Yields d m) {t : TypeDeclaration} {f : FieldDeclaration} {g : EntityField}
    (hbuild : ds.buildField t f = .ok g) : StoredAs m f g := by
  obtain ⟨type, htype, rfl, -⟩ := buildField_eq hbuild
  exact ⟨rfl, h.stands htype, rfl, rfl, rfl⟩

/-- A built field that is a list is neither an identifier nor a reference. -/
theorem not_isArray {t : TypeDeclaration} {e : Entity} (hbuild : ds.buildEntity t = .ok e)
    {g : EntityField} (hg : g ∈ e.fields) (hsingle : g.isPrimaryKey = true ∨ g.isReference = true) :
    g.isArray = false := by
  obtain ⟨f, -, -, hf⟩ := exists_field hbuild hg
  obtain ⟨type, -, rfl, hlist⟩ := buildField_eq hf
  rw [Bool.eq_false_iff]
  intro harray
  obtain ⟨hid, hreference⟩ := hlist harray
  rcases hsingle with hkey | hrefers
  · exact hid (by simpa [EntityField.isPrimaryKey] using hkey)
  · obtain ⟨target, htarget⟩ := (EntityField.isReference_iff _).mp hrefers
    exact hreference target htarget

/-- An entity of an extracted model is that of its declaration. -/
theorem entityOf (h : ds.Yields d m) {t : TypeDeclaration} {e : Entity} (he : e ∈ m.entities)
    (hbuild : ds.buildEntity t = .ok e) : EntityOf m t e := by
  have hsound := h.soundEntity he
  obtain ⟨-, -, -, hname, -⟩ := buildEntity_ok hbuild
  refine ⟨hname, (stored_fields hbuild).imp fun f g hg => h.storedAs hg, ?_, ?_, ?_, ?_⟩
  · obtain ⟨key, hkey⟩ := List.length_eq_one_iff.mp hsound.key
    have hmem : key ∈ e.primaryKeys := hkey ▸ List.mem_singleton_self key
    obtain ⟨hfield, hprimary⟩ := List.mem_filter.mp hmem
    exact ⟨key, hkey, not_isArray hbuild hfield (.inl hprimary)⟩
  · exact fun g hg hrefers => not_isArray hbuild hg (.inr hrefers)
  · exact fun spec hspec => indexes_over hbuild hspec
  · intro schema timestamps
    obtain ⟨c, hc⟩ := hsound.compiles ⟨schema, m.enums.map (·.name)⟩ rfl
    obtain ⟨-, htable, -⟩ := Entity.compile_ok hc
    refine ⟨c, hc, htable, CompiledEntity.nodup_columns timestamps ?_⟩
    rw [Entity.fieldColumns_eq hc]
    exact hsound.columns.nodup

/-- The names of two roles are different. -/
theorem disjoint_names (h : ds.Yields d m) {r r' : Role} (hne : r ≠ r') :
    List.Disjoint ((ds.ofRole r).map (·.name)) ((ds.ofRole r').map (·.name)) := by
  intro name hr hr'
  obtain ⟨t, ht, htname⟩ := List.mem_map.mp hr
  obtain ⟨t', ht', htname'⟩ := List.mem_map.mp hr'
  exact hne (h.sound.eq_of_name ht ht' (htname.trans htname'.symm)).1

end Yields

end Declarations

/-! ## Models -/

/-- An extracted model is well formed. -/
theorem extract_wellFormed {d : Document} {m : Model} (h : extract d = .ok m) : m.WellFormed d := by
  obtain ⟨ds, hyields⟩ := extract_ok h
  obtain ⟨htables, -⟩ := checkStorageNames_eq_ok_iff.mp hyields.storage
  refine ⟨?_, htables, ?_, ?_⟩
  · rw [hyields.entity_names, hyields.enum_names, hyields.shape_names, List.nodup_append',
      List.nodup_append', List.disjoint_append_left]
    exact ⟨⟨hyields.sound.ofRole_nodup _, hyields.sound.ofRole_nodup _, hyields.disjoint_names nofun⟩,
      hyields.sound.ofRole_nodup _, hyields.disjoint_names nofun, hyields.disjoint_names nofun⟩
  · rw [← hyields.ofRole_eq]
    exact forall₂_imp_of_mem hyields.entities fun t _ e he hbuild => hyields.entityOf he hbuild
  · intro s hs name hname
    obtain ⟨t, -, hbuild⟩ := exists_left_of_forall₂ hyields.shapes hs
    exact hyields.exists_named_shape (Declarations.has_shape_of_nested hbuild hname)

/-- Books of a shelf: a reference, a list of shapes of which one is nested in the other, and an index over two
fields. -/
def shelfDocument : Document where
  types :=
    [ { kind := .object, name := "Book"
        directives :=
          [ { name := "entity" },
            { name := "compositeIndexes"
              arguments := [(.text "fields", .list [.list [.text "shelf", .text "place"]])] } ]
        fields :=
          [ { name := "id", type := { name := "ID", nullable := false } },
            { name := "shelf", type := { name := "Shelf", nullable := false } },
            { name := "place", type := { name := "Int" } },
            { name := "notes", type := { name := "Note", isArray := true } } ] },
      { kind := .object, name := "Note", directives := [{ name := "jsonField" }]
        fields := [{ name := "page", type := { name := "Page" } }] },
      { kind := .object, name := "Page", directives := [{ name := "jsonField" }]
        fields := [{ name := "number", type := { name := "Int" } }] },
      { kind := .object, name := "Shelf", directives := [{ name := "entity" }]
        fields :=
          [ { name := "id", type := { name := "ID", nullable := false } },
            { name := "books", type := { name := "Book", isArray := true }
              directives := [{ name := "derivedFrom"
                               arguments := [(.text "field", .text "shelf")] }] } ] } ]

/-- The model of shelves and books. -/
def shelfModel : Model := (extract shelfDocument).toOption.getD {}

/-- The model of shelves and books is well formed. -/
theorem wellFormed_shelfModel :
    extract shelfDocument = .ok shelfModel ∧ shelfModel.WellFormed shelfDocument := by
  have hextract : extract shelfDocument = .ok shelfModel := eq_ok_of_toOption (by decide +kernel)
  exact ⟨hextract, extract_wellFormed hextract⟩

end SchemaReconcile
