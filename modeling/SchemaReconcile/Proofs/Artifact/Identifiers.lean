import SchemaReconcile.Proofs.Artifact.Files
import SchemaReconcile.Proofs.Artifact.MemberIdentifiers
import SchemaReconcile.Proofs.Catalog.Rows
import SchemaReconcile.Proofs.Extract.Names
import SchemaReconcile.Proofs.Extract.WellFormed

/-!
# Identifiers in generated sources

The generated files write names of the schema where an identifier is expected: in imports, class statements,
annotations and attributes (`Written`).  Each stands in a line of a file of the generation (`Written.mem_lines`,
`Written.mem_outputs`).  All of them can be written there exactly when the model is `Importable`: keywords are
looked for where attributes are named, and nowhere else, so a module must not be one and a class not a constant;
and the check of names lets a line feed through at the end.

The members of enumerations are named by rules of their own.  They are among the names, and the condition on them
is one on the values of the enumerations (`Writable`).
-/

namespace SchemaReconcile

/-- What the names of a model must be for its generated sources to be importable. -/
structure Model.Importable (m : Model) : Prop where
  types : ∀ name ∈ m.typeNames, '\n' ∉ name.toList ∧ name ∉ Artifact.constantNames
  /-- No module is a keyword. -/
  modules : ∀ e ∈ m.entities, Artifact.moduleName e.name ∉ Artifact.keywords
  fields : ∀ e ∈ m.entities, ∀ f ∈ e.fields, '\n' ∉ f.name.toList
  shapeFields : ∀ s ∈ m.jsonShapes, ∀ f ∈ s.fields, '\n' ∉ f.name.toList
  /-- A member can be written for every value of an enumeration. -/
  values : ∀ n ∈ m.enums, ∀ value ∈ n.values, Artifact.Writable value

namespace Artifact

/-! ## Places of names -/

/-- What stands in front of the base of an annotation. -/
def annotationLead (isArray nullable : Bool) : String :=
  (if nullable then "Optional[" else "") ++ if isArray then "List[" else ""

/-- What stands behind the base of an annotation. -/
def annotationTrail (isArray nullable : Bool) : String :=
  (if isArray then "]" else "") ++ if nullable then "]" else ""

/-- What stands behind the annotation of a field. -/
def SourceField.trail (f : SourceField) : String :=
  if f.arguments.isEmpty then "" else " = Field(" ++ ", ".intercalate f.arguments ++ ")"

/-- A file of a generation writes a name of the schema as an identifier, in a line with certain texts in front
of it and behind it. -/
inductive Written (t : Target) (m : Model) : Output → String → String → String → Prop
  /-- The module of an entity in the index of entities. -/
  | module {e : Entity} (he : e ∈ m.entities) :
      Written t m (modelsIndex t m) "from ." (moduleName e.name) (" import " ++ className e.name)
  /-- The class of an entity in this index. -/
  | import_ {e : Entity} (he : e ∈ m.entities) :
      Written t m (modelsIndex t m) ("from ." ++ moduleName e.name ++ " import ") (className e.name) ""
  | entityClass {e : Entity} {c : CompiledEntity} (he : e ∈ m.entities)
      (hc : e.compile ⟨t.schema, m.enums.map (·.name)⟩ = .ok c) :
      Written t m (entityFile t m e c) "class " (className e.name) "(BaseModel):"
  /-- The class of an enumeration or a shape in the imports of an entity. -/
  | entityImport {e : Entity} {c : CompiledEntity} {module name : String} {names before after : List String}
      (he : e ∈ m.entities) (hc : e.compile ⟨t.schema, m.enums.map (·.name)⟩ = .ok c)
      (hnames : module = "enums" ∧ names = enumNames c ∨ module = "interfaces" ∧ names = shapeNames c)
      (hname : importedNames names = before ++ name :: after) :
      Written t m (entityFile t m e c) ("from .." ++ module ++ " import " ++ String.join (before.map (· ++ ", ")))
        name (String.join (after.map (", " ++ ·)))
  | entityAttribute {e : Entity} {c : CompiledEntity} {g : CompiledField} (he : e ∈ m.entities)
      (hc : e.compile ⟨t.schema, m.enums.map (·.name)⟩ = .ok c) (hg : g ∈ c.fields) :
      Written t m (entityFile t m e c) "    " (entityField g).name
        (": " ++ SourceField.annotation (entityField g) ++ (entityField g).trail)
  /-- The class of an enumeration or a shape in the annotation of an attribute. -/
  | entityHolds {e : Entity} {c : CompiledEntity} {g : CompiledField} {held : String} (he : e ∈ m.entities)
      (hc : e.compile ⟨t.schema, m.enums.map (·.name)⟩ = .ok c) (hg : g ∈ c.fields)
      (hheld : g.declared.type = .enumeration held ∨ g.declared.type = .shape held) :
      Written t m (entityFile t m e c)
        ("    " ++ (entityField g).name ++ ": " ++ annotationLead g.declared.isArray g.declared.nullable)
        (className held) (annotationTrail g.declared.isArray g.declared.nullable ++ (entityField g).trail)
  | shapeClass {s : JsonShape} (hs : s ∈ m.jsonShapes) :
      Written t m (shapesFile t m) "class " (className s.name) "(BaseModel):"
  | shapeAttribute {s : JsonShape} {f : ShapeMember} (hs : s ∈ m.jsonShapes) (hf : f ∈ s.fields) :
      Written t m (shapesFile t m) "    " (shapeField f).name
        (": " ++ SourceField.annotation (shapeField f) ++ (shapeField f).trail)
  | shapeHolds {s : JsonShape} {f : ShapeMember} {held : String} (hs : s ∈ m.jsonShapes) (hf : f ∈ s.fields)
      (hheld : f.type = .shape held) :
      Written t m (shapesFile t m)
        ("    " ++ (shapeField f).name ++ ": " ++ annotationLead f.isArray f.nullable) (className held)
        (annotationTrail f.isArray f.nullable ++ (shapeField f).trail)
  /-- The class of a shape below all classes. -/
  | shapeRebuild {s : JsonShape} (hs : s ∈ m.jsonShapes) :
      Written t m (shapesFile t m) "" (className s.name) ".model_rebuild()"
  | enumClass {n : Enumeration} (hn : n ∈ m.enums) :
      Written t m (enumsFile t m) "class " (className n.name) "(str, Enum):"
  | member {n : Enumeration} {x : Member} (hn : n ∈ m.enums) (hx : x ∈ members n.values) :
      Written t m (enumsFile t m) "    " x.name (" = " ++ Text.quoted x.value)

variable {t : Target} {m : Model} {file : Output} {lead name trail : String}

/-! ## Lines -/

/-- The annotation of a field around its base. -/
theorem annotation_eq (base : String) (isArray nullable : Bool) :
    annotation base isArray nullable = annotationLead isArray nullable ++ base ++ annotationTrail isArray nullable := by
  unfold annotation annotationLead annotationTrail hostOf
  apply String.toList_injective
  cases isArray <;> cases nullable <;> simp

/-- The line of a field. -/
theorem mem_lines (f : SourceField) : "    " ++ f.name ++ (": " ++ f.annotation ++ f.trail) ∈ f.lines := by
  unfold SourceField.lines SourceField.trail
  refine List.mem_append_right _ ?_
  split
  · simp [String.append_assoc]
  · simp [String.append_assoc]

/-- Names with commas between them, around one of them. -/
theorem intercalate_around (before : List String) (name : String) (after : List String) :
    ", ".intercalate (before ++ name :: after) =
      String.join (before.map (· ++ ", ")) ++ name ++ String.join (after.map (", " ++ ·)) := by
  induction before with
  | nil =>
    rw [List.nil_append, List.map_nil, String.join_nil, String.empty_append]
    induction after generalizing name with
    | nil => simp
    | cons next after ih =>
      rw [String.intercalate_cons_of_ne_nil (List.cons_ne_nil _ _), ih, List.map_cons, String.join_cons]
      simp only [String.append_assoc]
  | cons first before ih =>
    rw [List.cons_append, String.intercalate_cons_of_ne_nil (by simp), ih, List.map_cons, String.join_cons]
    simp only [String.append_assoc]

/-- What a field of an entity holds, an enumeration or a shape, is declared in the model. -/
theorem held_mem_typeNames {d : Document} (hextract : extract d = .ok m) {e : Entity} (he : e ∈ m.entities)
    {c : CompiledEntity} {target : CompileTarget} (hc : e.compile target = .ok c) {g : CompiledField}
    (hg : g ∈ c.fields) {held : String}
    (hheld : g.declared.type = .enumeration held ∨ g.declared.type = .shape held) : held ∈ m.typeNames := by
  have hdeclared := Entity.declared_mem hc hg
  obtain ⟨t, -, hentity⟩ := exists_left_of_forall₂ (extract_wellFormed hextract).entities he
  obtain ⟨f, -, hstored⟩ := exists_left_of_forall₂ hentity.fields hdeclared
  have hstands := hstored.type
  rw [Model.typeNames, List.mem_append, List.mem_append]
  rcases hheld with hheld | hheld
  · rw [hheld] at hstands
    obtain ⟨rfl, n, hn, hname⟩ := hstands
    exact .inl (.inr (List.mem_map.mpr ⟨n, hn, hname⟩))
  · rw [hheld] at hstands
    obtain ⟨rfl, n, hn, hname⟩ := hstands
    exact .inr (List.mem_map.mpr ⟨n, hn, hname⟩)

/-- An imported name is the class of what a field holds. -/
theorem exists_held {c : CompiledEntity} {module : String} {names : List String}
    (hnames : module = "enums" ∧ names = enumNames c ∨ module = "interfaces" ∧ names = shapeNames c)
    (hname : name ∈ importedNames names) : ∃ held, name = className held ∧ ∃ g ∈ c.fields,
      g.declared.type = .enumeration held ∨ g.declared.type = .shape held := by
  rw [importedNames, Catalog.Snapshot.sorted, List.mem_mergeSort, Catalog.mem_ofMembers] at hname
  obtain ⟨held, hheld, rfl⟩ := List.mem_map.mp hname
  refine ⟨held, rfl, ?_⟩
  rcases hnames with ⟨-, rfl⟩ | ⟨-, rfl⟩
  · obtain ⟨g, hg, htype⟩ := List.mem_filterMap.mp hheld
    refine ⟨g, hg, .inl ?_⟩
    cases hg' : g.declared.type <;> rw [hg'] at htype <;> cases htype
    rfl
  · obtain ⟨g, hg, htype⟩ := List.mem_filterMap.mp hheld
    refine ⟨g, hg, .inr ?_⟩
    obtain ⟨hshape, -⟩ := Option.filter_eq_some_iff.mp htype
    cases hg' : g.declared.type <;> rw [hg'] at hshape <;> cases hshape
    rfl

/-- A line of a field around a class in its annotation. -/
theorem mem_lines_annotated {f : SourceField} {base : String} {isArray nullable : Bool}
    (htype : f.annotation = annotation base isArray nullable) :
    "    " ++ f.name ++ ": " ++ annotationLead isArray nullable ++ base ++
      (annotationTrail isArray nullable ++ f.trail) ∈ f.lines := by
  have hline := mem_lines f
  rw [htype, annotation_eq] at hline
  simpa only [String.append_assoc] using hline

/-- The lines of the file of an entity: its imports, the statement of its class, and its attributes. -/
theorem mem_lines_entityFile (t : Target) (m : Model) {e : Entity} {c : CompiledEntity} {target : CompileTarget}
    (hc : e.compile target = .ok c) :
    ∃ lines, (entityFile t m e c).text = linesText lines ∧
      (∀ line ∈ importLines "enums" (importedNames (enumNames c)), line ∈ lines) ∧
      (∀ line ∈ importLines "interfaces" (importedNames (shapeNames c)), line ∈ lines) ∧
      "class " ++ className e.name ++ "(BaseModel):" ∈ lines ∧
      ∀ g ∈ c.fields, ∀ line ∈ (entityField g).lines, line ∈ lines := by
  obtain ⟨hname, -⟩ := Entity.compile_ok hc
  refine ⟨_, by rw [entityFile, EntitySource.text], fun line hline => ?_, fun line hline => ?_, ?_,
    fun g hg line hline => ?_⟩
  · simp [EntitySource.headLines, entitySource, hline]
  · simp [EntitySource.headLines, entitySource, hline]
  · simp [entitySource, hname]
  · have hfields : line ∈ (c.fields.map entityField).flatMap SourceField.lines :=
      List.mem_flatMap.mpr ⟨entityField g, List.mem_map_of_mem hg, hline⟩
    simp only [entitySource, List.mem_append]
    exact .inr hfields

/-- The lines of the file of shapes: the statement of each class, its attributes, and a call below. -/
theorem mem_lines_shapesFile (t : Target) {m : Model} (hnames : (m.jsonShapes.map (·.name)).Nodup) :
    ∃ lines, (shapesFile t m).text = linesText lines ∧ ∀ s ∈ m.jsonShapes,
      "class " ++ className s.name ++ "(BaseModel):" ∈ lines ∧ className s.name ++ ".model_rebuild()" ∈ lines ∧
      ∀ f ∈ s.fields, ∀ line ∈ (shapeField f).lines, line ∈ lines := by
  refine ⟨_, by rw [shapesFile, shapesText], fun s hs => ?_⟩
  have hs' : s ∈ inOrder m.jsonShapes := (inOrder_perm hnames).mem_iff.mpr hs
  have hclass : ∀ line ∈ shapeLines s, line ∈ (inOrder m.jsonShapes).flatMap shapeLines :=
    fun line hline => List.mem_flatMap.mpr ⟨s, hs', hline⟩
  have hrebuild : className s.name ++ ".model_rebuild()" ∈
      (inOrder m.jsonShapes).map fun s => className s.name ++ ".model_rebuild()" :=
    List.mem_map.mpr ⟨s, hs', rfl⟩
  refine ⟨?_, ?_, fun f hf line hline => ?_⟩
  · have hline := hclass ("class " ++ className s.name ++ "(BaseModel):") (by simp [shapeLines])
    simp only [List.mem_append]
    exact .inl (.inl (.inr hline))
  · simp only [List.mem_append]
    exact .inr hrebuild
  · have hfield : line ∈ (s.fields.map shapeField).flatMap SourceField.lines :=
      List.mem_flatMap.mpr ⟨shapeField f, List.mem_map_of_mem hf, hline⟩
    have hline' := hclass line (List.mem_append_right _ hfield)
    simp only [List.mem_append]
    exact .inl (.inl (.inr hline'))

/-- The lines of the file of enumerations: the statement of each class, and its members. -/
theorem mem_lines_enumsFile (t : Target) (m : Model) :
    ∃ lines, (enumsFile t m).text = linesText lines ∧ ∀ n ∈ m.enums,
      "class " ++ className n.name ++ "(str, Enum):" ∈ lines ∧
      ∀ x ∈ members n.values, "    " ++ x.name ++ " = " ++ Text.quoted x.value ∈ lines := by
  refine ⟨_, rfl, fun n hn => ?_⟩
  have hclass : ∀ line ∈ enumLines n, line ∈ m.enums.flatMap enumLines :=
    fun line hline => List.mem_flatMap.mpr ⟨n, hn, hline⟩
  refine ⟨List.mem_append_right _ (hclass _ ?_), fun x hx => List.mem_append_right _ (hclass _ ?_)⟩
  · simp [enumLines]
  · exact List.mem_append_right _ (List.mem_map.mpr ⟨x, hx, rfl⟩)

/-- A name that is written stands in a line of its file. -/
theorem Written.mem_lines {d : Document} (hextract : extract d = .ok m) (h : Written t m file lead name trail) :
    ∃ lines, file.text = linesText lines ∧ lead ++ name ++ trail ∈ lines := by
  have hnames := (extract_wellFormed hextract).shapeNames
  cases h with
  | @module e he =>
    refine ⟨_, rfl, ?_⟩
    simp only [List.mem_append, List.mem_map]
    exact .inl (.inl (.inr ⟨_, ⟨e, he, rfl⟩, by simp only [String.append_assoc]⟩))
  | @import_ e he =>
    refine ⟨_, rfl, ?_⟩
    simp only [List.mem_append, List.mem_map]
    exact .inl (.inl (.inr ⟨_, ⟨e, he, rfl⟩, by simp only [String.append_assoc, String.append_empty]⟩))
  | @entityClass e c he hc =>
    obtain ⟨lines, htext, -, -, hclass, -⟩ := mem_lines_entityFile t m hc
    exact ⟨lines, htext, hclass⟩
  | @entityImport e c module name names before after he hc hnames hname =>
    obtain ⟨lines, htext, henums, hshapes, -⟩ := mem_lines_entityFile t m hc
    refine ⟨lines, htext, ?_⟩
    have hline : "from .." ++ module ++ " import " ++ String.join (before.map (· ++ ", ")) ++ name ++
        String.join (after.map (", " ++ ·)) ∈ importLines module (importedNames names) := by
      rw [importLines, hname, if_neg (by simp), intercalate_around, List.mem_singleton]
      simp only [String.append_assoc]
    rcases hnames with ⟨rfl, rfl⟩ | ⟨rfl, rfl⟩
    · exact henums _ hline
    · exact hshapes _ hline
  | @entityAttribute e c g he hc hg =>
    obtain ⟨lines, htext, -, -, -, hfields⟩ := mem_lines_entityFile t m hc
    exact ⟨lines, htext, hfields g hg _ (Artifact.mem_lines _)⟩
  | @entityHolds e c g held he hc hg hheld =>
    obtain ⟨lines, htext, -, -, -, hfields⟩ := mem_lines_entityFile t m hc
    refine ⟨lines, htext, hfields g hg _ (mem_lines_annotated ?_)⟩
    have hsafe := safe_typeNames hextract (held_mem_typeNames hextract he hc hg hheld)
    have hne : ¬ held.isEmpty = true := by
      intro hempty
      rw [String.isEmpty_iff.mp hempty] at hsafe
      exact absurd hsafe (by decide)
    rcases hheld with hheld | hheld
    · simp only [entityField, hheld, fieldBase]
    · simp only [entityField, hheld, fieldBase, if_neg hne]
  | @shapeClass s hs =>
    obtain ⟨lines, htext, hshapes⟩ := mem_lines_shapesFile t hnames
    exact ⟨lines, htext, (hshapes s hs).1⟩
  | @shapeAttribute s f hs hf =>
    obtain ⟨lines, htext, hshapes⟩ := mem_lines_shapesFile t hnames
    exact ⟨lines, htext, (hshapes s hs).2.2 f hf _ (Artifact.mem_lines _)⟩
  | @shapeHolds s f held hs hf hheld =>
    obtain ⟨lines, htext, hshapes⟩ := mem_lines_shapesFile t hnames
    refine ⟨lines, htext, (hshapes s hs).2.2 f hf _ (mem_lines_annotated ?_)⟩
    simp only [shapeField, hheld, memberBaseType]
  | @shapeRebuild s hs =>
    obtain ⟨lines, htext, hshapes⟩ := mem_lines_shapesFile t hnames
    refine ⟨lines, htext, ?_⟩
    rw [String.empty_append]
    exact (hshapes s hs).2.1
  | @enumClass n hn =>
    obtain ⟨lines, htext, henums⟩ := mem_lines_enumsFile t m
    exact ⟨lines, htext, (henums n hn).1⟩
  | @member n x hn hx =>
    obtain ⟨lines, htext, henums⟩ := mem_lines_enumsFile t m
    refine ⟨lines, htext, ?_⟩
    have hline := (henums n hn).2 x hx
    simpa only [String.append_assoc] using hline

/-- The file that a name is written in is one of the generation. -/
theorem Written.mem_outputs (hsound : m.Sound) (hsafe : Naming.isSafe t.schema = true)
    (h : Written t m file lead name trail) : file ∈ outputs (manifest t m).done := by
  obtain ⟨files, hfiles, houtputs⟩ := outputs_of_sound hsound hsafe
  have hentity : ∀ {e : Entity} {c : CompiledEntity}, e ∈ m.entities →
      e.compile ⟨t.schema, m.enums.map (·.name)⟩ = .ok c → entityFile t m e c ∈ files := by
    intro e c he hc
    obtain ⟨file, hfile, c', hc', rfl⟩ := exists_right_of_forall₂ hfiles he
    obtain rfl := Except.ok.inj (hc.symm.trans hc')
    exact hfile
  rw [houtputs, List.mem_append, gathered]
  cases h with
  | module he => exact .inr (by simp [List.ne_nil_of_mem he])
  | import_ he => exact .inr (by simp [List.ne_nil_of_mem he])
  | entityClass he hc => exact .inl (hentity he hc)
  | entityImport he hc => exact .inl (hentity he hc)
  | entityAttribute he hc => exact .inl (hentity he hc)
  | entityHolds he hc => exact .inl (hentity he hc)
  | shapeClass hs => exact .inr (by simp [List.ne_nil_of_mem hs])
  | shapeAttribute hs => exact .inr (by simp [List.ne_nil_of_mem hs])
  | shapeHolds hs => exact .inr (by simp [List.ne_nil_of_mem hs])
  | shapeRebuild hs => exact .inr (by simp [List.ne_nil_of_mem hs])
  | enumClass hn => exact .inr (by simp [List.ne_nil_of_mem hn])
  | member hn => exact .inr (by simp [List.ne_nil_of_mem hn])

/-! ## Names that can be written -/

/-- An attribute of an entity can be written unless its field has a line feed. -/
theorem usable_entityField {d : Document} (hextract : extract d = .ok m) {e : Entity} (he : e ∈ m.entities)
    {c : CompiledEntity} {target : CompileTarget} (hc : e.compile target = .ok c) {g : CompiledField}
    (hg : g ∈ c.fields) : Usable (entityField g).name ↔ '\n' ∉ g.declared.name.toList := by
  have hdeclared := Entity.declared_mem hc hg
  cases hkey : g.isForeignKey with
  | true =>
    have hname : (entityField g).name = unreserved g.declared.columnName := by
      simp only [entityField, hkey, if_true, Entity.column_eq hc hg]
    have hsafe := ((extract_sound hextract).entity e he).columns.safe g.declared hdeclared
    rw [hname, usable_unreserved hsafe, lineFeed_mem_columnName hextract he hdeclared]
  | false =>
    have hname : (entityField g).name = unreserved g.declared.name := by
      simp [entityField, hkey]
    rw [hname, usable_unreserved ((safe_names hextract he).2 g.declared hdeclared)]

/-- In an importable model the class of a declared type can be written. -/
theorem usable_of_mem_typeNames {d : Document} (himportable : m.Importable) (hextract : extract d = .ok m)
    {declared : String} (hdeclared : declared ∈ m.typeNames) : Usable (className declared) :=
  (usable_className (safe_typeNames hextract hdeclared)).mpr (himportable.types declared hdeclared)

/-- All names that are written for an importable model can be written. -/
theorem Written.usable {d : Document} (hextract : extract d = .ok m) (himportable : m.Importable)
    (h : Written t m file lead name trail) : Usable name := by
  have hentity : ∀ e ∈ m.entities, e.name ∈ m.typeNames := fun e he =>
    List.mem_append_left _ (List.mem_append_left _ (List.mem_map_of_mem he))
  have henum : ∀ n ∈ m.enums, n.name ∈ m.typeNames := fun n hn =>
    List.mem_append_left _ (List.mem_append_right _ (List.mem_map_of_mem hn))
  have hshape : ∀ s ∈ m.jsonShapes, s.name ∈ m.typeNames := fun s hs =>
    List.mem_append_right _ (List.mem_map_of_mem hs)
  cases h with
  | @module e he =>
    have hline := (himportable.types e.name (hentity e he)).1
    exact (usable_moduleName (safe_names hextract he).1).mpr ⟨hline, himportable.modules e he⟩
  | @import_ e he => exact usable_of_mem_typeNames himportable hextract (hentity e he)
  | @entityClass e c he hc => exact usable_of_mem_typeNames himportable hextract (hentity e he)
  | @entityImport e c module name names before after he hc hnames hname =>
    have hmem : name ∈ importedNames names := by
      rw [hname]
      simp
    obtain ⟨held, rfl, g, hg, hheld⟩ := exists_held hnames hmem
    exact usable_of_mem_typeNames himportable hextract (held_mem_typeNames hextract he hc hg hheld)
  | @entityAttribute e c g he hc hg =>
    have hdeclared := Entity.declared_mem hc hg
    exact (usable_entityField hextract he hc hg).mpr (himportable.fields e he g.declared hdeclared)
  | @entityHolds e c g held he hc hg hheld =>
    exact usable_of_mem_typeNames himportable hextract (held_mem_typeNames hextract he hc hg hheld)
  | @shapeClass s hs => exact usable_of_mem_typeNames himportable hextract (hshape s hs)
  | @shapeAttribute s f hs hf =>
    exact (usable_unreserved (safe_members hextract hs hf)).mpr (himportable.shapeFields s hs f hf)
  | @shapeHolds s f held hs hf hheld =>
    have hnested : held ∈ s.nested := List.mem_filterMap.mpr ⟨f, hf, by rw [hheld]; rfl⟩
    obtain ⟨n, hn, rfl⟩ := (extract_wellFormed hextract).nested s hs held hnested
    exact usable_of_mem_typeNames himportable hextract (hshape n hn)
  | @shapeRebuild s hs => exact usable_of_mem_typeNames himportable hextract (hshape s hs)
  | @enumClass n hn => exact usable_of_mem_typeNames himportable hextract (henum n hn)
  | @member n x hn hx => exact forall_usable_member_iff.mpr (himportable.values n hn) x hx

/-- A model is importable when all names that are written for it can be written. -/
theorem importable_of_usable {d : Document} (hextract : extract d = .ok m)
    (h : ∀ file lead name trail, Written t m file lead name trail → Usable name) : m.Importable := by
  have hsound := extract_sound hextract
  refine ⟨fun name hname => ?_, fun e he => ?_, fun e he f hf => ?_, fun s hs f hf => ?_, fun n hn => ?_⟩
  · have hsafe := safe_typeNames hextract hname
    refine (usable_className hsafe).mp ?_
    rw [Model.typeNames, List.mem_append, List.mem_append] at hname
    rcases hname with (hname | hname) | hname
    · obtain ⟨e, he, rfl⟩ := List.mem_map.mp hname
      exact h _ _ _ _ (.import_ he)
    · obtain ⟨n, hn, rfl⟩ := List.mem_map.mp hname
      exact h _ _ _ _ (.enumClass hn)
    · obtain ⟨s, hs, rfl⟩ := List.mem_map.mp hname
      exact h _ _ _ _ (.shapeClass hs)
  · exact ((usable_moduleName (safe_names hextract he).1).mp (h _ _ _ _ (.module he))).2
  · obtain ⟨c, hc⟩ := (hsound.entity e he).compiles ⟨t.schema, m.enums.map (·.name)⟩ rfl
    rw [← Entity.map_declared hc] at hf
    obtain ⟨g, hg, rfl⟩ := List.mem_map.mp hf
    exact (usable_entityField hextract he hc hg).mp (h _ _ _ _ (.entityAttribute he hc hg))
  · exact (usable_unreserved (safe_members hextract hs hf)).mp (h _ _ _ _ (.shapeAttribute hs hf))
  · exact forall_usable_member_iff.mp fun x hx => h _ _ _ _ (.member hn hx)

/-- Every name that is written where an identifier is expected stands in a line of a file of the generation, unless
the name of the schema is not safe and there are no files.  All of these names are identifiers and no keywords
exactly when the model is importable. -/
theorem identifiers_usable_iff {d : Document} (hextract : extract d = .ok m) (t : Target) :
    (Naming.isSafe t.schema = false → outputs (manifest t m).done = []) ∧
    (∀ file lead name trail, Written t m file lead name trail →
      (Naming.isSafe t.schema = true → file ∈ outputs (manifest t m).done) ∧
      ∃ lines, file.text = linesText lines ∧ lead ++ name ++ trail ∈ lines) ∧
    ((∀ file lead name trail, Written t m file lead name trail → Usable name) ↔ m.Importable) := by
  refine ⟨fun hunsafe => ?_, fun file lead name trail h => ?_, importable_of_usable hextract,
    fun himportable file lead name trail h => h.usable hextract himportable⟩
  · rw [(manifest_of_isSafe_eq_false hunsafe m).1]
    rfl
  · exact ⟨fun hsafe => h.mem_outputs (extract_sound hextract) hsafe, h.mem_lines hextract⟩

/-- The sources for authors and profiles are importable. -/
theorem identifiers_usable_iff_profileModel :
    extract profileDocument = .ok profileModel ∧ profileModel.Importable ∧
    ∀ file lead name trail, Written packageTarget profileModel file lead name trail → Usable name := by
  have hmembers : ∀ n ∈ profileModel.enums, ∀ member ∈ members n.values, Usable member.name := by
    decide +kernel
  have himportable : profileModel.Importable :=
    ⟨by decide +kernel, by decide +kernel, by decide +kernel, by decide +kernel,
      fun n hn => forall_usable_member_iff.mp (hmembers n hn)⟩
  have hall := (identifiers_usable_iff extract_profileDocument packageTarget).2.2.mpr himportable
  exact ⟨extract_profileDocument, himportable, hall⟩

/-- An entity with the name of a keyword. -/
def keywordDocument : Document where
  types :=
    [ { kind := .object, name := "Class", directives := [{ name := "entity" }]
        fields := [{ name := "id", type := { name := "ID", nullable := false } }] } ]

/-- The model of the entity with the name of a keyword. -/
def keywordModel : Model := (extract keywordDocument).toOption.getD {}

/-- The module of an entity may be a keyword, which no import can name. -/
theorem module_not_usable :
    extract keywordDocument = .ok keywordModel ∧
    modelsIndex packageTarget keywordModel ∈ outputs (manifest packageTarget keywordModel).done ∧
    Written packageTarget keywordModel (modelsIndex packageTarget keywordModel) "from ." "class" " import Class" ∧
    ¬ Usable "class" := by
  have hextract : extract keywordDocument = .ok keywordModel := eq_ok_of_toOption (by decide +kernel)
  have hwritten : ∀ e ∈ keywordModel.entities, moduleName e.name = "class" ∧ className e.name = "Class" := by
    decide +kernel
  obtain ⟨e, he⟩ : ∃ e, e ∈ keywordModel.entities := List.exists_mem_of_ne_nil _ (by decide +kernel)
  obtain ⟨hmodule, hclass⟩ := hwritten e he
  have himport : Written packageTarget keywordModel (modelsIndex packageTarget keywordModel) "from ." "class"
      " import Class" := by
    have hline := Written.module (t := packageTarget) he
    rwa [hmodule, hclass] at hline
  exact ⟨hextract, himport.mem_outputs (extract_sound hextract) (by decide), himport, by decide⟩

end Artifact

end SchemaReconcile
