import SchemaReconcile.Proofs.Plan.Commute
import SchemaReconcile.Proofs.Plan.Unrelated

/-!
# What sorting by phase does not change

A plan is made against a predicted snapshot, one operation after another, and carried out sorted by phase.  The
sorting is a stable one (`isSorting_byPhase`).  It moves foreign keys in front of what earlier relations defer,
and nothing else that matters: the deferred operations of a relation are about its own key, which is there when
their turn comes, so keys of other relations may pass them (`after_sorted`).

The snapshot after the sorted operations is therefore the predicted one itself, with its entries in the same
order, for every model and every snapshot for which there is a plan (`applyAll_plan`).
-/

namespace SchemaReconcile.Plan

open Catalog (Operation Snapshot Phase)
open Catalog.Operation (applyAll)
open Settings (Options)

variable {options : Options} {m : Model} {s : Snapshot} {ops : List Operation}

/-! ## Sorting -/

/-- Operations are those of another list, sorted by phase, where the order within a phase stays. -/
structure IsSorting (planned ops : List Operation) : Prop where
  perm : ops.Perm planned
  sorted : ops.Pairwise fun a b => Phase.all.idxOf a.phase ≤ Phase.all.idxOf b.phase
  stable : ∀ phase, ops.filter (fun op => op.phase == phase) = planned.filter fun op => op.phase == phase

/-- Sorting by phase keeps the operations of each phase in their order. -/
theorem filter_byPhase (ops : List Operation) (phase : Phase) :
    (byPhase ops).filter (fun op => op.phase == phase) = ops.filter fun op => op.phase == phase := by
  have hpart : ∀ p, (ops.filter fun op => op.phase == p).filter (fun op => op.phase == phase) =
      if p = phase then ops.filter fun op => op.phase == p else [] := fun p =>
    filter_phase_of_forall fun op hop => by simpa using (List.mem_filter.mp hop).2
  simp only [byPhase, Phase.all, List.flatMap_cons, List.flatMap_nil, List.filter_append, hpart]
  cases phase <;> simp

/-- Sorting by phase is a stable sorting. -/
theorem isSorting_byPhase (ops : List Operation) : IsSorting ops (byPhase ops) where
  perm := by
    rw [List.perm_iff_count]
    intro a
    rw [← List.count_filter (p := fun op => op.phase == a.phase) (l := byPhase ops) (by simp),
      filter_byPhase, List.count_filter (by simp)]
  sorted := by
    have hphase : ∀ {p op}, op ∈ ops.filter (fun op => op.phase == p) → op.phase = p := fun hop => by
      simpa using (List.mem_filter.mp hop).2
    have hall : Phase.all.Pairwise fun p q => Phase.all.idxOf p ≤ Phase.all.idxOf q := by decide
    refine List.pairwise_flatMap.mpr ⟨fun p _ => ?_, hall.imp fun hle a ha b hb => ?_⟩
    · exact List.pairwise_of_forall_mem_list fun a ha b hb =>
        Nat.le_of_eq (by rw [hphase ha, hphase hb])
    · rwa [hphase ha, hphase hb]
  stable := filter_byPhase ops

/-! ## The predicted snapshot -/

/-- The operations that are taken of an agenda, in the order in which they are planned. -/
def planned (options : Options) (m : Model) (s : Snapshot) : List Operation :=
  (settle (operationsOf (agenda options m).done) s).done

/-- The snapshot that planning ends with, when each operation of the agenda had its turn. -/
def predicted (options : Options) (m : Model) (s : Snapshot) : Snapshot :=
  turns (operationsOf (agenda options m).done) s

/-- The snapshot after the operations of an outline is the same in the order in which they are carried out. -/
theorem after_sorted {w : Outline} (h : w.Sound) (s : Snapshot) :
    after w.sorted s = after w.operations s := by
  by_cases hfault : (settle w.types s).fault = none
  · obtain ⟨-, -, hrelations⟩ := settle_relations h.relations (after w.tables (after w.types s))
    rw [Outline.sorted, Outline.operations, after_append_of_fault_eq_none hfault,
      after_append_of_fault_eq_none hfault, after_append h.peaceful_tables, after_append h.peaceful_tables,
      after_append h.peaceful_keys, hrelations]
  · -- a type with other labels ends both
    rw [after, after, Outline.sorted, Outline.operations, settle_append_of_fault _ hfault,
      settle_append_of_fault _ hfault]

/-- Carrying out a plan leads to the snapshot that was predicted when it was made.

The operations of a plan are those that were planned, sorted by phase.  Carried out in this order they lead to the
same snapshot as in the order in which they were planned, and that is the predicted one. -/
theorem applyAll_plan (hplan : plan options m s = .ok ops) :
    IsSorting (planned options m s) ops ∧
      applyAll ops s = applyAll (planned options m s) s ∧
      applyAll (planned options m s) s = predicted options m s := by
  have hsound := outline_sound options m (compiledEntities options m)
  have hoperations := agenda_operations (agenda_fault_of_plan hplan)
  have hsettle : settle (outlineOf options m).sorted s = ⟨ops, none⟩ := settle_of_plan hplan
  have hsorted := settle_sorted hsound s
  rw [outlineOf] at hsettle
  rw [hsettle, ← hoperations] at hsorted
  obtain ⟨hops, hnone⟩ := Progress.mk.inj hsorted
  have hafter : applyAll ops s = applyAll (planned options m s) s := by
    have hsame := after_sorted hsound s
    rw [after, hsettle, after, ← hoperations] at hsame
    exact hsame
  refine ⟨hops ▸ isSorting_byPhase _, hafter, (turns_of_settle ?_).symm⟩
  rw [hnone]
  rfl

/-- Posts with authors, who read their posts backwards, and with editors. -/
def editorDocument : Document where
  types :=
    [ { kind := .object, name := "Author", directives := [{ name := "entity" }]
        fields :=
          [ { name := "id", type := { name := "ID", nullable := false } },
            { name := "posts", type := { name := "Post", isArray := true }
              directives := [{ name := "derivedFrom", arguments := [(.text "field", .text "author")] }] } ] },
      { kind := .object, name := "Post", directives := [{ name := "entity" }]
        fields :=
          [ { name := "id", type := { name := "ID", nullable := false } },
            { name := "author", type := { name := "Author", nullable := false } },
            { name := "editor", type := { name := "Author" } } ] } ]

/-- The model of posts with authors and editors. -/
def editorModel : Model := (extract editorDocument).toOption.getD {}

/-- The key of the editors moves in front of the comment on the key of the authors, and the snapshot after both
is the predicted one. -/
theorem applyAll_plan_editorModel :
    ∃ ops, plan {} editorModel begun = .ok ops ∧ ops ≠ planned {} editorModel begun ∧
      applyAll ops begun = applyAll (planned {} editorModel begun) begun ∧
      applyAll (planned {} editorModel begun) begun = predicted {} editorModel begun := by
  have hplan : plan {} editorModel begun = .ok ((plan {} editorModel begun).toOption.getD []) :=
    eq_ok_of_toOption (by decide +kernel)
  exact ⟨_, hplan, by decide +kernel, (applyAll_plan hplan).2⟩

end SchemaReconcile.Plan
