import SchemaReconcile.Proofs.Extract.Sound
import SchemaReconcile.Proofs.Naming.Spelling

/-!
# Names in a document

The names of an extracted model were checked when its declarations were classified (`safe_names`,
`safe_typeNames`, `safe_members`).  The check lets a line feed through at the end of a name, and snake case
keeps it: a table or a column has a line feed exactly when the entity or the field has one in its name.
-/

namespace SchemaReconcile

/-! ## Checked declarations -/

/-- A declaration passes when its name and those of its fields are safe. -/
theorem checkNames_ok {d : TypeDeclaration} (h : checkNames d = .ok ()) :
    Naming.isSafe d.name = true ∧ ∀ f ∈ d.fields, Naming.isSafe f.name = true := by
  unfold checkNames at h
  cases hname : Naming.isSafe d.name with
  | false =>
    rw [hname] at h
    cases h
  | true =>
    rw [hname] at h
    obtain ⟨⟨⟩, hfields, -⟩ := bind_eq_ok.mp h
    refine ⟨rfl, fun f hf => ?_⟩
    have hstep := (forIn_eq_ok_iff ?_).mp hfields f hf
    · by_contra hother
      rw [Bool.not_eq_true] at hother
      rw [hother] at hstep
      cases hstep
    · intro g _ step hg
      cases hsafe : Naming.isSafe g.name with
      | false =>
        rw [hsafe] at hg
        cases hg
      | true =>
        rw [hsafe] at hg
        exact (Except.ok.inj hg).symm

/-- The names of every classified declaration are safe. -/
theorem safe_of_mem_classified {taken : List String} {types : List TypeDeclaration}
    {classified : List (Role × TypeDeclaration)} (h : classify taken types = .ok classified) :
    ∀ p ∈ classified, Naming.isSafe p.2.name = true ∧
      ∀ f ∈ p.2.fields, Naming.isSafe f.name = true := by
  induction types generalizing taken classified with
  | nil =>
    obtain rfl := Except.ok.inj h
    simp
  | cons d rest ih =>
    rcases classify_cons_eq_ok_iff.mp h with ⟨-, hrest⟩ | ⟨role, later, -, hnames, -, hlater, rfl⟩
    · exact ih hrest
    · exact List.forall_mem_cons.mpr ⟨checkNames_ok hnames, ih hlater⟩

/-! ## Names of a model -/

variable {d : Document} {m : Model}

/-- The names of the entities of an extracted model and of their fields are safe. -/
theorem safe_names (h : extract d = .ok m) {e : Entity} (he : e ∈ m.entities) :
    Naming.isSafe e.name = true ∧ ∀ f ∈ e.fields, Naming.isSafe f.name = true := by
  obtain ⟨ds, hyields⟩ := extract_ok h
  obtain ⟨-, -, hclassified⟩ := Declarations.ofDocument_eq_ok hyields.document
  obtain ⟨t, ht, hbuild, hname, -⟩ := hyields.exists_declaration he
  obtain ⟨hsafe, hfields⟩ := safe_of_mem_classified hclassified _ (Declarations.mem_ofRole.mp ht)
  refine ⟨hname ▸ hsafe, fun g hg => ?_⟩
  obtain ⟨f, hf, -, hfg⟩ := Declarations.exists_field hbuild hg
  rw [(Declarations.buildField_ok hfg).1]
  exact hfields f hf

/-- The names of the types of a model: its entities, its enumerations and its shapes. -/
def Model.typeNames (m : Model) : List String :=
  m.entities.map (·.name) ++ m.enums.map (·.name) ++ m.jsonShapes.map (·.name)

/-- The names of the types of an extracted model are safe. -/
theorem safe_typeNames (h : extract d = .ok m) {name : String} (hname : name ∈ m.typeNames) :
    Naming.isSafe name = true := by
  obtain ⟨ds, hyields⟩ := extract_ok h
  obtain ⟨-, -, hclassified⟩ := Declarations.ofDocument_eq_ok hyields.document
  have hrole : ∀ {role : Role}, name ∈ (ds.ofRole role).map (·.name) → Naming.isSafe name = true := by
    intro role hmem
    obtain ⟨t, ht, rfl⟩ := List.mem_map.mp hmem
    exact (safe_of_mem_classified hclassified _ (Declarations.mem_ofRole.mp ht)).1
  rw [Model.typeNames, hyields.entity_names, hyields.enum_names, hyields.shape_names, List.mem_append,
    List.mem_append] at hname
  rcases hname with (hname | hname) | hname
  · exact hrole hname
  · exact hrole hname
  · exact hrole hname

/-- The names of the members of a shape are safe. -/
theorem safe_members (h : extract d = .ok m) {s : JsonShape} (hs : s ∈ m.jsonShapes) {f : ShapeMember}
    (hf : f ∈ s.fields) : Naming.isSafe f.name = true := by
  obtain ⟨ds, hyields⟩ := extract_ok h
  obtain ⟨-, -, hclassified⟩ := Declarations.ofDocument_eq_ok hyields.document
  obtain ⟨t, ht, hbuild⟩ := exists_left_of_forall₂ hyields.shapes hs
  obtain ⟨fields, hfields, hshape⟩ := bind_eq_ok.mp hbuild
  obtain rfl := Except.ok.inj hshape
  obtain ⟨g, hg, hmember⟩ := exists_left_of_forall₂ (mapM_eq_ok_iff.mp hfields) hf
  have hname : f.name = g.name := by
    obtain ⟨kind?, -, hmember⟩ := bind_eq_ok.mp hmember
    cases kind? with
    | some kind =>
      obtain rfl := Except.ok.inj hmember
      rfl
    | none =>
      dsimp only at hmember
      split at hmember
      · obtain rfl := Except.ok.inj hmember
        rfl
      · cases hmember
  rw [hname]
  exact (safe_of_mem_classified hclassified _ (Declarations.mem_ofRole.mp ht)).2 g hg

/-- The table of an entity has a line feed exactly when its name does. -/
theorem lineFeed_mem_tableName (h : extract d = .ok m) {e : Entity} (he : e ∈ m.entities) :
    '\n' ∈ e.tableName.toList ↔ '\n' ∈ e.name.toList :=
  Naming.lineFeed_mem_snakeCase (Naming.spelled_of_isSafe (safe_names h he).1).worded

/-- The column of a field has a line feed exactly when its name does. -/
theorem lineFeed_mem_columnName (h : extract d = .ok m) {e : Entity} (he : e ∈ m.entities)
    {f : EntityField} (hf : f ∈ e.fields) :
    '\n' ∈ f.columnName.toList ↔ '\n' ∈ f.name.toList := by
  have hname := (Naming.spelled_of_isSafe ((safe_names h he).2 f hf)).worded
  rw [EntityField.columnName, EntityField.storedName, EntityField.foreignKey?]
  split
  · have hkey : Naming.Worded ['\n'] (EntityField.keyName f.name) :=
      Naming.worded_append.mpr ⟨hname, by decide⟩
    rw [Option.getD_some, Naming.lineFeed_mem_snakeCase hkey, EntityField.keyName, String.toList_append,
      List.mem_append]
    exact or_iff_left (by decide)
  · exact Naming.lineFeed_mem_snakeCase hname

/-- A model whose schema names have no line feed: neither those of the entities nor those of the fields. -/
def Model.OnOneLine (m : Model) : Prop :=
  ∀ e ∈ m.entities, '\n' ∉ e.name.toList ∧ ∀ f ∈ e.fields, '\n' ∉ f.name.toList

end SchemaReconcile
