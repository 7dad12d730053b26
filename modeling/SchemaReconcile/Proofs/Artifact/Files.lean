import SchemaReconcile.Proofs.Artifact.Docstrings
import SchemaReconcile.Proofs.Artifact.Metadata

/-!
# The files of a generation

A generation writes one file for each entity (`IsEntityFile`), and then those that gather what there is
(`gathered`): an index of the entities, the shapes, the enumerations, and an index of the package.  For a sound
model and a safe schema these are all of its files, in this order (`outputs_of_sound`); for any other schema there
are none (`manifest_of_isSafe_eq_false`).
-/

namespace SchemaReconcile.Artifact

variable {t : Target} {m : Model}

/-- The file of an entity of a model. -/
def entityFile (t : Target) (m : Model) (e : Entity) (c : CompiledEntity) : Output :=
  ⟨e.name, t.models.child (moduleFile (moduleName e.name)), (entitySource t.schema m e c).text⟩

/-- A file is that of an entity of a model, as it is compiled. -/
def IsEntityFile (t : Target) (m : Model) (e : Entity) (file : Output) : Prop :=
  ∃ c, e.compile ⟨t.schema, m.enums.map (·.name)⟩ = .ok c ∧ file = entityFile t m e c

/-- The index of the entities of a model. -/
def modelsIndex (t : Target) (m : Model) : Output :=
  ⟨"models index", t.models.child (moduleFile "__init__"),
    entityIndexText (m.entities.map fun e => (moduleName e.name, e.name))⟩

/-- The index of the package of a model. -/
def packageIndex (t : Target) (m : Model) : Output :=
  ⟨"index", t.output.child (moduleFile "__init__"),
    indexText (!m.entities.isEmpty) (!m.jsonShapes.isEmpty) (!m.enums.isEmpty)⟩

/-- The files of a model that gather what there is. -/
def gathered (t : Target) (m : Model) : List Output :=
  (if m.entities.isEmpty then [] else [modelsIndex t m]) ++
    (if m.jsonShapes.isEmpty then [] else [shapesFile t m]) ++
    (if m.enums.isEmpty then [] else [enumsFile t m]) ++
    if hasOutput m then [packageIndex t m] else []

/-- Nothing is written for a schema with a name that is not safe, which is a fault. -/
theorem manifest_of_isSafe_eq_false (h : Naming.isSafe t.schema = false) (m : Model) :
    (manifest t m).done = [] ∧ (manifest t m).fault ≠ none := by
  rw [manifest, CompileTarget.of, Naming.safe, h]
  exact ⟨rfl, Option.some_ne_none _⟩

/-- What is written is for a schema with a safe name. -/
theorem isSafe_of_mem_outputs {o : Output} (ho : o ∈ outputs (manifest t m).done) :
    Naming.isSafe t.schema = true := by
  by_contra hunsafe
  rw [Bool.not_eq_true] at hunsafe
  rw [(manifest_of_isSafe_eq_false hunsafe m).1] at ho
  cases ho

/-- A manifest without a fault is for a schema with a safe name. -/
theorem isSafe_of_fault_eq_none (h : (manifest t m).fault = none) : Naming.isSafe t.schema = true := by
  by_contra hunsafe
  rw [Bool.not_eq_true] at hunsafe
  exact (manifest_of_isSafe_eq_false hunsafe m).2 h

/-- The generated files of several parts. -/
theorem outputs_flatMap {α : Type} (steps : α → List Step) (items : List α) :
    outputs (items.flatMap steps) = items.flatMap fun a => outputs (steps a) :=
  List.filterMap_flatMap

/-- Items that give one result each give them one after another. -/
theorem exists_forall₂_of_flatMap {α β : Type} {R : α → β → Prop} {results : α → List β} {items : List α}
    (h : ∀ a ∈ items, ∃ b, R a b ∧ results a = [b]) : List.Forall₂ R items (items.flatMap results) := by
  induction items with
  | nil => exact .nil
  | cons a rest ih =>
    obtain ⟨b, hb, hone⟩ := h a List.mem_cons_self
    rw [List.flatMap_cons, hone]
    exact .cons hb (ih fun a' ha' => h a' (List.mem_cons_of_mem _ ha'))

/-- The files of a sound model. -/
theorem outputs_of_sound (h : m.Sound) (hsafe : Naming.isSafe t.schema = true) :
    ∃ files, List.Forall₂ (IsEntityFile t m) m.entities files ∧
      outputs (manifest t m).done = files ++ gathered t m := by
  have hwritten : ∀ e ∈ m.entities, ∃ file, IsEntityFile t m e file ∧
      outputs (entitySteps t m ⟨t.schema, m.enums.map (·.name)⟩ e).done = [file] := by
    intro e he
    obtain ⟨c, hc⟩ := (h.entity e he).compiles ⟨t.schema, m.enums.map (·.name)⟩ rfl
    obtain ⟨hname, -⟩ := Entity.compile_ok hc
    refine ⟨_, ⟨c, hc, rfl⟩, ?_⟩
    rw [entitySteps_of_sound h t he hc, hname]
    rfl
  refine ⟨_, exists_forall₂_of_flatMap hwritten, ?_⟩
  rw [manifest_of_sound h hsafe, outputs_flatMap, manifestParts, gathered]
  have hpart : ∀ {α : Type} (items : List α) (file : Output),
      ((unlessEmpty items (writing file.artifact file.path file.text)).flatMap fun p => outputs p.done) =
        if items.isEmpty then [] else [file] := by
    intro α items file
    unfold unlessEmpty
    split <;> rfl
  have hmodels := hpart m.entities (modelsIndex t m)
  have hshapes := hpart m.jsonShapes (shapesFile t m)
  have henums := hpart m.enums (enumsFile t m)
  simp only [modelsIndex, shapesFile, enumsFile] at hmodels hshapes henums
  simp only [List.flatMap_append, List.flatMap_map, hmodels, hshapes, henums, List.append_assoc,
    modelsIndex, shapesFile, enumsFile]
  congr 4
  split <;> rfl

end SchemaReconcile.Artifact
