import SchemaReconcile.Proofs.Artifact.Files
import SchemaReconcile.Proofs.Artifact.Generate
import SchemaReconcile.Proofs.Artifact.Usable
import SchemaReconcile.Proofs.Extract.Names
import SchemaReconcile.Proofs.Extract.WellFormed

/-!
# Generated files and classes side by side

The files of a generation share a directory, and its classes a package.  Files are at different paths unless an
entity has the module of the index of the entities (`Model.ModulesApart`): the tables of entities are different, and
so are their modules, but nothing holds them apart from the index, which is then written over the file of the entity.
Otherwise every file that was written holds its text at the end.

The package exports the classes of all types (`parts`).  Their names are different unless two types differ in the case
of the first letter only (`Model.ClassesApart`): types are held apart as they are written, and tables in lower case,
but an enumeration or a shape has no table.  The class that is exported last then stands for both.
-/

namespace SchemaReconcile

/-- No entity has the module of the index of the entities. -/
def Model.ModulesApart (m : Model) : Prop := ∀ e ∈ m.entities, Artifact.moduleName e.name ≠ "__init__"

/-- No two types have names that differ in the case of the first letter only. -/
def Model.ClassesApart (m : Model) : Prop :=
  ∀ a ∈ m.typeNames, ∀ b ∈ m.typeNames, Artifact.SameButFirst a b → a = b

/-- Whether the modules of a model are apart can be computed. -/
instance (m : Model) : Decidable m.ModulesApart := inferInstanceAs (Decidable (∀ _ ∈ _, _))

namespace Artifact

open File (Path Tree)
open File.Tree (Apart up)

variable {t : Target} {m : Model} {d : Document} {o o' : Output}

/-! ## Paths -/

/-- The names of the files that gather what there is, below the directory of the output. -/
def gatheredNames (m : Model) : List (List String) :=
  (if m.entities.isEmpty then [] else [["models", moduleFile "__init__"]]) ++
    (if m.jsonShapes.isEmpty then [] else [[moduleFile "interfaces"]]) ++
    (if m.enums.isEmpty then [] else [[moduleFile "enums"]]) ++
    if hasOutput m then [[moduleFile "__init__"]] else []

/-- The names of the files of a model, below the directory of the output. -/
def fileNames (m : Model) : List (List String) :=
  (m.entities.map fun e => ["models", moduleFile (moduleName e.name)]) ++ gatheredNames m

/-- The files that gather declarations stand under the output directory. -/
theorem map_path_gathered (t : Target) (m : Model) :
    (gathered t m).map (·.path) = (gatheredNames m).map t.output.under := by
  have hmodels : ∀ name, t.models.child name = t.output.under ["models", name] := fun name =>
    Path.under_under t.output ["models"] [name]
  unfold gathered gatheredNames
  simp only [List.map_append, apply_ite (List.map _), List.map_cons, List.map_nil, modelsIndex, shapesFile,
    enumsFile, packageIndex, hmodels, Path.child_eq]

/-- The paths of the files of a sound model. -/
theorem map_path_outputs (h : m.Sound) (hsafe : Naming.isSafe t.schema = true) :
    (outputs (manifest t m).done).map (·.path) = (fileNames m).map t.output.under := by
  obtain ⟨files, hfiles, houtputs⟩ := outputs_of_sound h hsafe
  have hentities : files.map (·.path) =
      m.entities.map fun e => t.output.under ["models", moduleFile (moduleName e.name)] := by
    refine map_eq_map_of_forall₂ hfiles fun e file hfile => ?_
    obtain ⟨c, -, rfl⟩ := hfile
    exact Path.under_under t.output ["models"] [moduleFile (moduleName e.name)]
  rw [houtputs, List.map_append, hentities, map_path_gathered, fileNames, List.map_append, List.map_map]
  rfl

/-- The file of a module tells the module. -/
theorem moduleFile_injective : Function.Injective moduleFile := by
  intro a b h
  have hlist := congrArg String.toList h
  rw [moduleFile, moduleFile, String.toList_append, String.toList_append] at hlist
  exact String.toList_inj.mp (List.append_cancel_right hlist)

/-- No file of a module leads to the place above. -/
theorem up_ne_moduleFile (module : String) : up ≠ moduleFile module := by
  intro h
  have hlength := congrArg String.length h
  rw [moduleFile, String.length_append] at hlength
  have hthree : ".py".length = 3 := by decide
  have htwo : up.length = 2 := by decide
  omega

/-- The files that gather what there is are some of four. -/
theorem gatheredNames_sublist (m : Model) :
    (gatheredNames m).Sublist [["models", moduleFile "__init__"], [moduleFile "interfaces"], [moduleFile "enums"],
      [moduleFile "__init__"]] := by
  have hpart : ∀ (b : Bool) (names : List String), (if b then [] else [names]).Sublist [names] := by
    intro b names
    cases b
    · exact List.Sublist.refl _
    · exact List.nil_sublist _
  have hindex : (if hasOutput m then [[moduleFile "__init__"]] else []).Sublist [[moduleFile "__init__"]] := by
    cases hasOutput m
    · exact List.nil_sublist _
    · exact List.Sublist.refl _
  exact (((hpart m.entities.isEmpty ["models", moduleFile "__init__"]).append
    (hpart m.jsonShapes.isEmpty [moduleFile "interfaces"])).append
    (hpart m.enums.isEmpty [moduleFile "enums"])).append hindex

/-- No name below the directory of the output leads to the place above. -/
theorem up_not_mem_fileNames {names : List String} (h : names ∈ fileNames m) : up ∉ names := by
  have hmodels : up ≠ "models" := by decide
  rcases List.mem_append.mp h with h | h
  · obtain ⟨e, -, rfl⟩ := List.mem_map.mp h
    simp [hmodels, up_ne_moduleFile]
  · have hfour := (gatheredNames_sublist m).subset h
    simp only [List.mem_cons, List.not_mem_nil, or_false] at hfour
    rcases hfour with rfl | rfl | rfl | rfl <;> simp [hmodels, up_ne_moduleFile]

/-- The names of files are different exactly when no entity has the module of the index. -/
theorem nodup_fileNames_iff (h : m.Sound) : (fileNames m).Nodup ↔ m.ModulesApart := by
  have hentities : (m.entities.map fun e => ["models", moduleFile (moduleName e.name)]).Nodup := by
    have htables := h.tables.map (f := fun module => ["models", moduleFile module]) fun a b hab => by
      simp only [List.cons.injEq, and_true, true_and] at hab
      exact moduleFile_injective hab
    rwa [List.map_map] at htables
  have hgathered : (gatheredNames m).Nodup := (gatheredNames_sublist m).nodup (by decide)
  rw [fileNames, List.nodup_append']
  constructor
  · rintro ⟨-, -, hdisjoint⟩ e he hindex
    refine hdisjoint (List.mem_map.mpr ⟨e, he, rfl⟩) ?_
    rw [hindex]
    simp [gatheredNames, List.ne_nil_of_mem he]
  · intro hapart
    refine ⟨hentities, hgathered, fun names hnames hnames' => ?_⟩
    obtain ⟨e, he, rfl⟩ := List.mem_map.mp hnames
    have hfour := (gatheredNames_sublist m).subset hnames'
    simp only [List.mem_cons, List.not_mem_nil, or_false, List.cons.injEq, true_and, and_true, reduceCtorEq,
      and_false] at hfour
    exact hapart e he (moduleFile_injective hfour)

/-- The paths of files are different exactly when no entity has the module of the index. -/
theorem nodup_paths_iff (h : m.Sound) (hsafe : Naming.isSafe t.schema = true) :
    ((outputs (manifest t m).done).map (·.path)).Nodup ↔ m.ModulesApart := by
  rw [map_path_outputs h hsafe, List.nodup_map_iff (Path.under_injective t.output)]
  exact nodup_fileNames_iff h

/-- Files of a generation at different paths are apart. -/
theorem apart_of_ne (h : m.Sound) (ho : o ∈ outputs (manifest t m).done)
    (ho' : o' ∈ outputs (manifest t m).done) (hne : o.path ≠ o'.path) : Apart o.path o'.path := by
  have hunder : ∀ o ∈ outputs (manifest t m).done, ∃ names, up ∉ names ∧ o.path = t.output.under names := by
    intro o ho
    have hpath : o.path ∈ (outputs (manifest t m).done).map (·.path) := List.mem_map_of_mem ho
    rw [map_path_outputs h (isSafe_of_mem_outputs ho)] at hpath
    obtain ⟨names, hnames, hpath⟩ := List.mem_map.mp hpath
    exact ⟨names, up_not_mem_fileNames hnames, hpath.symm⟩
  obtain ⟨names, hup, hpath⟩ := hunder o ho
  obtain ⟨names', hup', hpath'⟩ := hunder o' ho'
  rw [hpath, hpath'] at hne ⊢
  exact File.Tree.apart_under hup hup' (fun heq => hne (congrArg _ heq)) t.output

/-! ## Runs -/

/-- A file that a generation has written holds its text at the end unless a later one has its path. -/
theorem holds_of_sound (h : m.Sound) {tree : Tree} {before after : List Output}
    (houtputs : outputs (run t m tree).steps = before ++ o :: after)
    (hlater : o.path ∉ after.map (·.path)) : Holds (run t m tree).tree o := by
  refine run_holds houtputs fun o' ho' => ?_
  have hwritten : ∀ o ∈ outputs (run t m tree).steps, o ∈ outputs (manifest t m).done := fun o ho =>
    ((run_isPrefix t m tree).filterMap Step.output?).subset ho
  have ho := hwritten o (by simp [houtputs])
  have ho'' := hwritten o' (by simp [houtputs, ho'])
  exact apart_of_ne h ho'' ho fun hpath => hlater (List.mem_map.mpr ⟨o', ho', hpath⟩)

/-- The file of an entity starts with a ruler, and the index does not. -/
theorem text_entityFile_ne (t : Target) (m : Model) (e : Entity) (c : CompiledEntity) :
    (entityFile t m e c).text ≠ (modelsIndex t m).text := by
  have hstart : ∀ (line : String) (more : List String), 3 ≤ line.toList.length →
      (linesText (line :: more)).toList.take 3 = line.toList.take 3 := by
    intro line more hlength
    rw [linesText, List.map_cons, String.join_cons, String.toList_append, String.toList_append,
      List.append_assoc, List.take_append_of_le_length hlength]
  intro htext
  have hfirst : ruler.toList.take 3 = generatedLine.toList.take 3 := by
    rw [← hstart ruler _ (by decide), ← hstart generatedLine _ (by decide)]
    exact congrArg (fun text => text.toList.take 3) htext
  exact absurd hfirst (by decide)

/-- All files of a generation without a fault hold their texts exactly when no entity has the module of the index. -/
theorem holds_iff (h : m.Sound) {tree : Tree} (hfault : (run t m tree).fault = none) :
    (∀ o ∈ outputs (run t m tree).steps, Holds (run t m tree).tree o) ↔ m.ModulesApart := by
  obtain ⟨hsteps, hmanifest⟩ := run_steps_eq hfault
  have hsafe := isSafe_of_fault_eq_none hmanifest
  constructor
  · intro hall e he hindex
    -- the file of the entity and the index are at one path, with different texts
    obtain ⟨files, hfiles, houtputs⟩ := outputs_of_sound h hsafe
    obtain ⟨file, hfile, c, -, rfl⟩ := exists_right_of_forall₂ hfiles he
    rw [hsteps, houtputs] at hall
    have hentity := hall _ (List.mem_append_left _ hfile)
    have hmodels : modelsIndex t m ∈ gathered t m := by simp [gathered, List.ne_nil_of_mem he]
    have hmodels' := hall _ (List.mem_append_right _ hmodels)
    have hpath : (entityFile t m e c).path = (modelsIndex t m).path := by
      rw [entityFile, modelsIndex, hindex]
    rw [Holds, hpath] at hentity
    exact text_entityFile_ne t m e c (eq_of_toUTF8_toList (Except.ok.inj (hentity.symm.trans hmodels')))
  · intro hapart o ho
    obtain ⟨before, after, houtputs⟩ := List.append_of_mem ho
    refine holds_of_sound h houtputs fun hlater => ?_
    have hnodup := (nodup_paths_iff h hsafe).mpr hapart
    rw [← hsteps, houtputs, List.map_append, List.map_cons, List.nodup_append', List.nodup_cons] at hnodup
    exact hnodup.2.1.1 hlater

/-! ## Classes -/

/-- A part of the package: a module, the file that lists its classes, and the types that these are of. -/
structure Part where
  module : String
  file : Output
  types : List String

/-- The parts of the package of a model, in the order in which its index takes them over. -/
def parts (t : Target) (m : Model) : List Part :=
  [⟨"models", modelsIndex t m, m.entities.map (·.name)⟩,
    ⟨"interfaces", shapesFile t m, (inOrder m.jsonShapes).map (·.name)⟩,
    ⟨"enums", enumsFile t m, m.enums.map (·.name)⟩]

/-- A file exports names: the list of them is among its lines. -/
def Exports (file : Output) (names : List String) : Prop :=
  ∃ lines, file.text = linesText lines ∧ exportLines names <:+: lines

/-- Each part exports the classes of its types. -/
theorem exports_of_mem_parts {part : Part} (hpart : part ∈ parts t m) :
    Exports part.file (part.types.map className) := by
  simp only [parts, List.mem_cons, List.not_mem_nil, or_false] at hpart
  rcases hpart with rfl | rfl | rfl
  · refine ⟨_, by rw [modelsIndex, entityIndexText], ?_⟩
    rw [List.map_map, List.map_map, List.map_map]
    exact (List.suffix_append _ _).isInfix
  · refine ⟨_, by rw [shapesFile, shapesText], ?_⟩
    rw [List.map_map]
    refine List.IsInfix.trans ?_ ((List.prefix_append _ _).trans (List.prefix_append _ _)).isInfix
    exact List.infix_append _ _ _
  · refine ⟨_, by rw [enumsFile, enumsText], ?_⟩
    rw [List.map_map]
    exact List.infix_append _ _ _

/-- The index of the package takes over what the parts with types export, and nothing else. -/
theorem text_packageIndex (h : (m.jsonShapes.map (·.name)).Nodup) :
    (packageIndex t m).text = linesText (generatedLine :: ((parts t m).filter fun p => !p.types.isEmpty).map
      fun p => "from ." ++ p.module ++ " import *  # noqa: F401,F403") := by
  have hshapes : (inOrder m.jsonShapes).isEmpty = m.jsonShapes.isEmpty := (inOrder_perm h).isEmpty_eq
  simp only [packageIndex, indexText, parts, List.filter_cons, List.isEmpty_map, hshapes, List.filter_nil]
  cases m.entities.isEmpty <;> cases m.jsonShapes.isEmpty <;> cases m.enums.isEmpty <;> rfl

/-- The types whose classes the package exports, in the order of its parts. -/
def exportedTypes (t : Target) (m : Model) : List String := (parts t m).flatMap (·.types)

/-- The type whose class a name of the package stands for: of those that are exported by this name, the last one. -/
def typeOfClass? (t : Target) (m : Model) (name : String) : Option String :=
  (exportedTypes t m).reverse.find? fun type => className type == name

/-- The package exports the classes of all types, each once. -/
theorem exportedTypes_perm (h : (m.jsonShapes.map (·.name)).Nodup) (t : Target) :
    (exportedTypes t m).Perm m.typeNames := by
  have hshapes := ((inOrder_perm h).map (·.name)).append_right (m.enums.map (·.name))
  rw [Model.typeNames, List.append_assoc]
  refine List.Perm.trans ?_ ((hshapes.trans List.perm_append_comm).append_left (m.entities.map (·.name)))
  rw [exportedTypes, parts]
  simp only [List.flatMap_cons, List.flatMap_nil, List.append_nil]
  exact List.Perm.refl _

/-- No two types have the same class name exactly when their names differ elsewhere than in the case of the first
letter. -/
theorem classesApart_iff (hextract : extract d = .ok m) :
    m.ClassesApart ↔ ∀ a ∈ m.typeNames, ∀ b ∈ m.typeNames, className a = className b → a = b := by
  refine forall₂_congr fun a ha => forall₂_congr fun b hb => ?_
  rw [className_eq_iff (safe_typeNames hextract ha) (safe_typeNames hextract hb)]

/-- The package exports different class names exactly when no two types differ in the case of the first letter only. -/
theorem nodup_classes_iff (hextract : extract d = .ok m) (t : Target) :
    ((exportedTypes t m).map className).Nodup ↔ m.ClassesApart := by
  have hnames : m.typeNames.Nodup := (extract_wellFormed hextract).names
  have hperm := exportedTypes_perm (extract_wellFormed hextract).shapeNames t
  rw [classesApart_iff hextract, (hperm.map className).nodup_iff, List.nodup_map_iff_inj_on hnames]

/-- Each type is the one that its class name stands for exactly when no two types differ in the case of the first
letter only. -/
theorem typeOfClass?_eq_iff (hextract : extract d = .ok m) (t : Target) :
    (∀ type ∈ m.typeNames, typeOfClass? t m (className type) = some type) ↔ m.ClassesApart := by
  have hmem : ∀ type, type ∈ (exportedTypes t m).reverse ↔ type ∈ m.typeNames := fun type => by
    rw [List.mem_reverse, (exportedTypes_perm (extract_wellFormed hextract).shapeNames t).mem_iff]
  rw [classesApart_iff hextract]
  constructor
  · intro hall a ha b hb hab
    have hfound := hall a ha
    rw [hab, hall b hb] at hfound
    exact (Option.some.inj hfound).symm
  · intro hapart type htype
    cases hfound : typeOfClass? t m (className type) with
    | none =>
      have hnone := List.find?_eq_none.mp hfound type ((hmem type).mpr htype)
      simp at hnone
    | some other =>
      have hother : other ∈ m.typeNames := (hmem other).mp (List.mem_of_find?_eq_some hfound)
      have hclass : className other = className type := by simpa using List.find?_some hfound
      rw [hapart other hother type htype hclass]

/-! ## Both -/

/-- The files of a generation, and the classes of its package.  If the name of the schema is not safe there are no
files.  Otherwise they have different paths exactly when no entity has the module of the index.  A generation writes
the first ones of them, and all if it has no fault; each holds its text at the end unless a later one has its path,
and in a generation without a fault all do exactly when no entity has the module of the index.

The index of the package takes over the classes that its parts export, and these are the classes of all types.  Their
names are different exactly when no two types differ in the case of the first letter only, and just then each type is
the one that its class name stands for. -/
theorem artifacts_distinct_iff (hextract : extract d = .ok m) (t : Target) :
    (Naming.isSafe t.schema = false → outputs (manifest t m).done = []) ∧
    (Naming.isSafe t.schema = true →
      (((outputs (manifest t m).done).map (·.path)).Nodup ↔ m.ModulesApart)) ∧
    (∀ tree,
      outputs (run t m tree).steps <+: outputs (manifest t m).done ∧
      (∀ before o after, outputs (run t m tree).steps = before ++ o :: after →
        o.path ∉ after.map (·.path) → Holds (run t m tree).tree o) ∧
      ((run t m tree).fault = none →
        outputs (run t m tree).steps = outputs (manifest t m).done ∧
        ((∀ o ∈ outputs (run t m tree).steps, Holds (run t m tree).tree o) ↔ m.ModulesApart))) ∧
    (packageIndex t m).text = linesText (generatedLine :: ((parts t m).filter fun p => !p.types.isEmpty).map
      fun p => "from ." ++ p.module ++ " import *  # noqa: F401,F403") ∧
    (∀ part ∈ parts t m, Exports part.file (part.types.map className)) ∧
    (exportedTypes t m).Perm m.typeNames ∧
    (((exportedTypes t m).map className).Nodup ↔ m.ClassesApart) ∧
    ((∀ type ∈ m.typeNames, typeOfClass? t m (className type) = some type) ↔ m.ClassesApart) := by
  have hsound := extract_sound hextract
  have hshapes := (extract_wellFormed hextract).shapeNames
  refine ⟨fun hunsafe => ?_, nodup_paths_iff hsound, fun tree => ⟨?_, fun before o after => holds_of_sound hsound,
      fun hfault => ⟨?_, holds_iff hsound hfault⟩⟩,
    text_packageIndex hshapes, fun part => exports_of_mem_parts, exportedTypes_perm hshapes t,
    nodup_classes_iff hextract t, typeOfClass?_eq_iff hextract t⟩
  · rw [(manifest_of_isSafe_eq_false hunsafe m).1]
    rfl
  · exact (run_isPrefix t m tree).filterMap Step.output?
  · rw [(run_steps_eq hfault).1]

/-- The files and classes for authors and profiles are kept apart. -/
theorem artifacts_distinct_iff_profileModel :
    extract profileDocument = .ok profileModel ∧ profileModel.ModulesApart ∧ profileModel.ClassesApart ∧
    (run packageTarget profileModel []).fault = none ∧
    ((outputs (manifest packageTarget profileModel).done).map (·.path)).Nodup ∧
    (∀ o ∈ outputs (run packageTarget profileModel []).steps, Holds (run packageTarget profileModel []).tree o) ∧
    ((exportedTypes packageTarget profileModel).map className).Nodup := by
  have hmodules : profileModel.ModulesApart := by decide +kernel
  have hclasses : profileModel.ClassesApart := (classesApart_iff extract_profileDocument).mpr (by decide +kernel)
  have hfault : (run packageTarget profileModel []).fault = none := by decide +kernel
  obtain ⟨-, hpaths, hruns, -, -, -, hnames, -⟩ := artifacts_distinct_iff extract_profileDocument packageTarget
  exact ⟨extract_profileDocument, hmodules, hclasses, hfault, (hpaths (by decide)).mpr hmodules,
    ((hruns []).2.2 hfault).2.mpr hmodules, hnames.mpr hclasses⟩

/-- An entity and an enumeration that differ in the case of the first letter, and an entity with the module of the
index. -/
def clashingDocument : Document where
  types :=
    [ { kind := .object, name := "Status", directives := [{ name := "entity" }]
        fields := [{ name := "id", type := { name := "ID", nullable := false } }] },
      { kind := .enumeration, name := "status", values := ["OPEN"] },
      { kind := .object, name := "__init__", directives := [{ name := "entity" }]
        fields := [{ name := "id", type := { name := "ID", nullable := false } }] } ]

/-- The model of the types that clash. -/
def clashingModel : Model := (extract clashingDocument).toOption.getD {}

/-- Two files of a generation may have one path, so that the later one replaces the other, and two types one class
name, so that one class hides the other. -/
theorem artifacts_clash :
    extract clashingDocument = .ok clashingModel ∧
    ¬ ((outputs (manifest packageTarget clashingModel).done).map (·.path)).Nodup ∧
    (run packageTarget clashingModel []).fault = none ∧
    (∃ o ∈ outputs (run packageTarget clashingModel []).steps,
      ¬ Holds (run packageTarget clashingModel []).tree o) ∧
    ¬ ((exportedTypes packageTarget clashingModel).map className).Nodup ∧
    "Status" ∈ clashingModel.typeNames ∧
    typeOfClass? packageTarget clashingModel (className "Status") = some "status" := by
  have hextract : extract clashingDocument = .ok clashingModel := eq_ok_of_toOption (by decide +kernel)
  have hmodules : ¬ clashingModel.ModulesApart := by decide +kernel
  have hfault : (run packageTarget clashingModel []).fault = none := by decide +kernel
  obtain ⟨o, ho, hreplaced⟩ : ∃ o ∈ outputs (run packageTarget clashingModel []).steps,
      ¬ Holds (run packageTarget clashingModel []).tree o := by
    by_contra hnone
    exact hmodules ((holds_iff (extract_sound hextract) hfault).mp fun o ho => by_contra fun h => hnone ⟨o, ho, h⟩)
  have hpaths := (nodup_paths_iff (t := packageTarget) (extract_sound hextract) (by decide)).not.mpr hmodules
  exact ⟨hextract, hpaths, hfault, ⟨o, ho, hreplaced⟩, by decide +kernel, by decide +kernel, by decide +kernel⟩

end Artifact

end SchemaReconcile
