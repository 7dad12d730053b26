import SchemaReconcile.Artifact.Generate
import SchemaReconcile.Proofs.File.Tree

/-!
# What a generation leaves

A generation takes the steps of a manifest one by one until one of them fails (`Takes`): those that it takes are the
first ones of the manifest, and all of them when nothing fails.  A step that writes a file leaves its text there
(`Holds`) and does not touch files at paths apart, whether it succeeds or fails, so a file still holds its text at the
end unless a later step has written to the same place (`run_holds`).
-/

namespace SchemaReconcile.Artifact

open File (Path Tree)
open File.Tree (Apart Keeps)

/-- A file of a tree holds the text of an output. -/
def Holds (tree : Tree) (o : Output) : Prop := tree.read o.path = .ok o.text.toUTF8.toList

variable {t : Target} {m : Model} {tree tree' : Tree} {o : Output} {p : Path} {bytes : List UInt8}
  {fault : GenerateFault}

/-! ## Texts -/

/-- The bytes of an array from a position on stand behind those that were read. -/
theorem toList_loop (bytes : ByteArray) (i : Nat) (done : List UInt8) :
    ByteArray.toList.loop bytes i done = done.reverse ++ bytes.data.toList.drop i := by
  fun_induction ByteArray.toList.loop bytes i done with
  | case1 i done hi ih =>
    have hlength : i < bytes.data.toList.length := by simpa using hi
    rw [ih, List.drop_eq_getElem_cons hlength, List.reverse_cons, List.append_assoc]
    simp [ByteArray.get!, hi]
  | case2 i done hi =>
    rw [List.drop_eq_nil_of_le (by simpa using Nat.le_of_not_lt hi), List.append_nil]

/-- Texts with the same bytes are the same. -/
theorem eq_of_toUTF8_toList {a b : String} (h : a.toUTF8.toList = b.toUTF8.toList) : a = b := by
  have hall : ∀ bytes : ByteArray, bytes.toList = bytes.data.toList := fun bytes => toList_loop bytes 0 []
  rw [hall, hall, Array.toList_inj] at h
  exact String.toByteArray_inj.mp (ByteArray.ext h)

/-! ## Steps -/

/-- The file of an output holds its text after it was written. -/
theorem holds_writeOutput (h : writeOutput tree o = (tree', none)) : Holds tree' o := by
  unfold writeOutput at h
  split at h
  · cases h
  · split at h
    · cases h
    · next hwrite =>
      obtain ⟨rfl, -⟩ := Prod.mk.inj h
      exact File.Tree.read_write hwrite

/-- What is read at a path apart stays when an output is written. -/
theorem read_writeOutput_of_apart (h : writeOutput tree o = (tree', none)) (hapart : Apart o.path p)
    (hread : tree.read p = .ok bytes) : tree'.read p = .ok bytes := by
  have hkeeps := File.Tree.keeps_ensureDirectories tree o.path.parent
  unfold writeOutput at h
  split at h
  · cases h
  · next ready hready =>
    rw [hready] at hkeeps
    split at h
    · cases h
    · next hwrite =>
      obtain ⟨rfl, -⟩ := Prod.mk.inj h
      exact File.Tree.read_write_of_apart hapart hwrite (hkeeps.read hread)

/-- An output that cannot be written leaves all nodes. -/
theorem keeps_writeOutput_of_fault (h : writeOutput tree o = (tree', some fault)) : Keeps tree tree' := by
  have hkeeps := File.Tree.keeps_ensureDirectories tree o.path.parent
  unfold writeOutput at h
  split at h
  · next hready =>
    obtain ⟨rfl, -⟩ := Prod.mk.inj h
    rwa [hready] at hkeeps
  · next ready hready =>
    rw [hready] at hkeeps
    split at h
    · obtain ⟨rfl, -⟩ := Prod.mk.inj h
      exact hkeeps
    · cases h

/-! ## Runs -/

/-- The steps of a manifest are taken one by one, until one fails. -/
inductive Takes : Tree → List Step → Tree → List Step → Option GenerateFault → Prop
  | done (tree : Tree) : Takes tree [] tree [] none
  /-- A step that writes nothing. -/
  | pass {tree tree' : Tree} {step : Step} {rest taken : List Step} {fault : Option GenerateFault}
      (hnone : step.output? = none) (hrest : Takes tree rest tree' taken fault) :
      Takes tree (step :: rest) tree' (step :: taken) fault
  | write {tree written tree' : Tree} {step : Step} {o : Output} {rest taken : List Step}
      {fault : Option GenerateFault} (hsome : step.output? = some o)
      (hwrite : writeOutput tree o = (written, none)) (hrest : Takes written rest tree' taken fault) :
      Takes tree (step :: rest) tree' (step :: taken) fault
  | stop {tree tree' : Tree} {step : Step} {o : Output} {rest : List Step} {fault : GenerateFault}
      (hsome : step.output? = some o) (hwrite : writeOutput tree o = (tree', some fault)) :
      Takes tree (step :: rest) tree' [] (some fault)

/-- Steps are taken one after the other, up to the first that fails. -/
theorem takes_takeSteps (tree : Tree) (steps : List Step) :
    Takes tree steps (takeSteps tree steps).1 (takeSteps tree steps).2.1 (takeSteps tree steps).2.2 := by
  induction steps generalizing tree with
  | nil => exact .done tree
  | cons step rest ih =>
    unfold takeSteps
    split
    · next hnone => exact .pass hnone (ih tree)
    · next o hsome =>
      split
      · next hwrite => exact .stop hsome hwrite
      · next written hwrite => exact .write hsome hwrite (ih written)

namespace Takes

variable {steps taken : List Step} {fault : Option GenerateFault}

/-- The steps that are taken are the first ones. -/
theorem isPrefix (h : Takes tree steps tree' taken fault) : taken <+: steps := by
  induction h with
  | done => exact List.prefix_rfl
  | pass _ _ ih => exact List.cons_prefix_cons.mpr ⟨rfl, ih⟩
  | write _ _ _ ih => exact List.cons_prefix_cons.mpr ⟨rfl, ih⟩
  | stop => exact List.nil_prefix

/-- All steps are taken when none fails. -/
theorem eq_of_none (h : Takes tree steps tree' taken fault) (hnone : fault = none) : taken = steps := by
  induction h with
  | done => rfl
  | pass _ _ ih => rw [ih hnone]
  | write _ _ _ ih => rw [ih hnone]
  | stop => cases hnone

/-- What is read at a path apart from those that are written stays. -/
theorem read (h : Takes tree steps tree' taken fault) (hapart : ∀ o ∈ outputs taken, Apart o.path p)
    (hread : tree.read p = .ok bytes) : tree'.read p = .ok bytes := by
  induction h with
  | done => exact hread
  | pass hnone _ ih =>
    rw [outputs, List.filterMap_cons_none hnone] at hapart
    exact ih hapart hread
  | write hsome hwrite _ ih =>
    rw [outputs, List.filterMap_cons_some hsome, List.forall_mem_cons] at hapart
    exact ih hapart.2 (read_writeOutput_of_apart hwrite hapart.1 hread)
  | stop _ hwrite => exact (keeps_writeOutput_of_fault hwrite).read hread

/-- A file that is written holds its text at the end, if those that are written later are apart from it. -/
theorem holds (h : Takes tree steps tree' taken fault) {before after : List Output}
    (houtputs : outputs taken = before ++ o :: after) (hapart : ∀ o' ∈ after, Apart o'.path o.path) :
    Holds tree' o := by
  induction h generalizing before with
  | done => simp [outputs] at houtputs
  | pass hnone _ ih =>
    rw [outputs, List.filterMap_cons_none hnone] at houtputs
    exact ih houtputs
  | write hsome hwrite hrest ih =>
    rw [outputs, List.filterMap_cons_some hsome] at houtputs
    cases before with
    | nil =>
      obtain ⟨rfl, rfl⟩ := List.cons.inj houtputs
      exact hrest.read hapart (holds_writeOutput hwrite)
    | cons first before => exact ih (List.cons.inj houtputs).2
  | stop => simp [outputs] at houtputs

end Takes

/-- A generation takes steps of the manifest once the directory of the models is ready; before that, none.  It has no
fault when neither the steps nor the manifest have one. -/
theorem run_cases (t : Target) (m : Model) (tree : Tree) :
    ((run t m tree).steps = [] ∧ (run t m tree).fault ≠ none) ∨
      ∃ ready fault, Takes ready (manifest t m).done (run t m tree).tree (run t m tree).steps fault ∧
        ((run t m tree).fault = none → fault = none ∧ (manifest t m).fault = none) := by
  unfold run
  split
  · exact .inl ⟨rfl, by simp⟩
  · next ready _ =>
    have htakes := takes_takeSteps ready (manifest t m).done
    dsimp only
    split
    · next heq =>
      rw [heq] at htakes
      exact .inr ⟨ready, _, htakes, fun hnone => nomatch hnone⟩
    · next heq =>
      rw [heq] at htakes
      exact .inr ⟨ready, _, htakes, fun hnone => ⟨rfl, Option.map_eq_none_iff.mp hnone⟩⟩

/-- The steps of a generation are the first ones of the manifest. -/
theorem run_isPrefix (t : Target) (m : Model) (tree : Tree) :
    (run t m tree).steps <+: (manifest t m).done := by
  rcases run_cases t m tree with ⟨hnone, -⟩ | ⟨ready, fault, htakes, -⟩
  · rw [hnone]
    exact List.nil_prefix
  · exact htakes.isPrefix

/-- A generation without a fault takes all steps of the manifest, which has none either. -/
theorem run_steps_eq (h : (run t m tree).fault = none) :
    (run t m tree).steps = (manifest t m).done ∧ (manifest t m).fault = none := by
  rcases run_cases t m tree with ⟨-, hfault⟩ | ⟨ready, fault, htakes, hnone⟩
  · exact absurd h hfault
  · exact ⟨htakes.eq_of_none (hnone h).1, (hnone h).2⟩

/-- A file that a generation has written holds its text at the end, if the later ones are apart from it. -/
theorem run_holds {before after : List Output} (houtputs : outputs (run t m tree).steps = before ++ o :: after)
    (hapart : ∀ o' ∈ after, Apart o'.path o.path) : Holds (run t m tree).tree o := by
  rcases run_cases t m tree with ⟨hnone, -⟩ | ⟨ready, fault, htakes, -⟩
  · simp [hnone, outputs] at houtputs
  · exact htakes.holds houtputs hapart

end SchemaReconcile.Artifact
