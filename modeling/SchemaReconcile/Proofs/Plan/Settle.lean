import SchemaReconcile.Plan.Basic
import SchemaReconcile.Proofs.Catalog.Fact

/-!
# Settling operations

Settling a list of operations takes each one that is pending when its turn comes.  Whatever holds of an
operation at its turn is stated with `EachTurn`; by construction every operation taken is pending then
(`settle_eachTurn_pending`).

The operations of a list are coherent when none of them takes back what another one is for.  Settling
coherent operations leaves everything shown that they are for (`settle_shows`), and settling them again
after some of what was taken gives exactly the rest (`settle_resume`).
-/

namespace SchemaReconcile.Plan

open Catalog (Operation Snapshot Fact)
open Catalog.Operation (applyAll shows_apply pending_iff)

/-! ## One operation -/

/-- An operation makes true what it is for. -/
theorem mem_effects_of_mem_wants {op : Operation} {f : Fact} (h : f ∈ op.wants) : f ∈ op.effects := by
  cases op <;> simp_all [Operation.wants, Operation.effects]

/-- An operation without a conflict that is not pending has all that it is for. -/
theorem shows_of_not_pending {op : Operation} {s : Snapshot} {f : Fact}
    (hconflict : op.conflict? s = none) (hpending : op.pending s = false) (hf : f ∈ op.wants) :
    s.Shows f := by
  have hfirst : ∀ g ∈ op.wants.head?, s.Shows g := by
    intro g hg
    by_contra hs
    have : op.pending s = true := by
      rw [pending_iff]
      intro g' hg'
      rwa [Option.mem_unique hg' hg]
    rw [this] at hpending
    cases hpending
  cases op with
  | createEnumType schema type labels enumeration =>
    obtain ⟨live, hlive⟩ := Option.isSome_iff_exists.mp (hfirst (.enumType type) rfl)
    have hsame : live = labels := by
      simpa [Operation.conflict?, hlive, Option.filter] using hconflict
    rcases List.mem_pair.mp hf with rfl | rfl
    · exact hfirst _ rfl
    · rw [← hsame]
      exact hlive
  | blank => cases hf
  | _ =>
    rw [List.mem_singleton.mp hf]
    exact hfirst _ rfl

/-- An operation that is for something is neither pending nor in conflict where all of that is shown. -/
theorem settled_of_shows {op : Operation} {s : Snapshot} (hwants : op.wants ≠ [])
    (h : ∀ f ∈ op.wants, s.Shows f) : op.conflict? s = none ∧ op.pending s = false := by
  have hpending : op.pending s = false := by
    rw [Bool.eq_false_iff]
    intro hp
    obtain ⟨g, rest, hg⟩ := List.exists_cons_of_ne_nil hwants
    exact pending_iff.mp hp g (by rw [hg]; rfl) (h g (by rw [hg]; exact List.mem_cons_self))
  refine ⟨?_, hpending⟩
  cases op with
  | createEnumType schema type labels enumeration =>
    have hlive : s.labels? type = some labels := h (.labels type labels) (by simp [Operation.wants])
    simp [Operation.conflict?, hlive, Option.filter]
  | _ => rfl

/-! ## Turns -/

/-- A property of operations holds of each one when its turn comes. -/
def EachTurn (P : Operation → Snapshot → Prop) : List Operation → Snapshot → Prop
  | [], _ => True
  | op :: rest, s => P op s ∧ EachTurn P rest (op.apply s)

variable {P : Operation → Snapshot → Prop} {ops : List Operation} {s : Snapshot}

/-- The turn of the operation at an index comes after those before it. -/
theorem EachTurn.getElem (h : EachTurn P ops s) (i : ℕ) (hi : i < ops.length) :
    P ops[i] (applyAll (ops.take i) s) := by
  induction ops generalizing s i with
  | nil => cases hi
  | cons op rest ih =>
    cases i with
    | zero => exact h.1
    | succ i => exact ih h.2 i (Nat.lt_of_succ_lt_succ hi)

/-- What holds at each turn holds at each turn of a first part. -/
theorem EachTurn.take (h : EachTurn P ops s) (k : ℕ) : EachTurn P (ops.take k) s := by
  induction ops generalizing s k with
  | nil => rwa [List.take_nil]
  | cons op rest ih =>
    cases k with
    | zero => exact trivial
    | succ k => exact ⟨h.1, ih h.2 k⟩

/-- A weaker property holds at each turn. -/
theorem EachTurn.imp {Q : Operation → Snapshot → Prop} (hPQ : ∀ op s, P op s → Q op s)
    (h : EachTurn P ops s) : EachTurn Q ops s := by
  induction ops generalizing s with
  | nil => exact trivial
  | cons op rest ih => exact ⟨hPQ _ _ h.1, ih h.2⟩

/-- A fact that no operation takes back is still shown after operations that were each pending. -/
theorem shows_applyAll {f : Fact} (hturn : EachTurn (fun op s => op.pending s = true) ops s)
    (hkept : ∀ op ∈ ops, ¬ op.Overwrites f) (hf : s.Shows f) : (applyAll ops s).Shows f := by
  induction ops generalizing s with
  | nil => exact hf
  | cons op rest ih =>
    have hstep : (op.apply s).Shows f :=
      (shows_apply f hturn.1).mpr (.inl ⟨hf, hkept op List.mem_cons_self⟩)
    exact ih hturn.2 (fun a ha => hkept a (List.mem_cons_of_mem _ ha)) hstep

/-! ## Settling -/

/-- A conflict ends settling. -/
theorem settle_cons_conflict {op : Operation} {rest : List Operation} {live : List String}
    (h : op.conflict? s = some live) : settle (op :: rest) s = ⟨[], some (driftFault op live)⟩ := by
  simp [settle, h]

/-- A pending operation is taken. -/
theorem settle_cons_taken {op : Operation} {rest : List Operation} (hconflict : op.conflict? s = none)
    (hpending : op.pending s = true) :
    settle (op :: rest) s =
      ⟨op :: (settle rest (op.apply s)).done, (settle rest (op.apply s)).fault⟩ := by
  simp [settle, hconflict, hpending]

/-- An operation that is not pending is left out. -/
theorem settle_cons_skipped {op : Operation} {rest : List Operation}
    (hconflict : op.conflict? s = none) (hpending : op.pending s = false) :
    settle (op :: rest) s = settle rest s := by
  simp [settle, hconflict, hpending]

/-- Settling ends without a fault when the first operation has no conflict and neither have the others
after it. -/
theorem settle_cons_eq {op : Operation} {rest taken : List Operation}
    (h : settle (op :: rest) s = ⟨taken, none⟩) :
    op.conflict? s = none ∧
      ((op.pending s = true ∧ ∃ later, taken = op :: later ∧
          settle rest (op.apply s) = ⟨later, none⟩) ∨
        (op.pending s = false ∧ settle rest s = ⟨taken, none⟩)) := by
  cases hconflict : op.conflict? s with
  | some live =>
    rw [settle_cons_conflict hconflict] at h
    cases h
  | none =>
    refine ⟨rfl, ?_⟩
    cases hpending : op.pending s with
    | true =>
      rw [settle_cons_taken hconflict hpending] at h
      obtain ⟨hdone, hfault⟩ := Progress.mk.inj h
      exact .inl ⟨rfl, _, hdone.symm, by rw [← hfault]⟩
    | false =>
      rw [settle_cons_skipped hconflict hpending] at h
      exact .inr ⟨rfl, h⟩

/-- Only operations of the list are taken, in their order. -/
theorem settle_sublist (ops : List Operation) (s : Snapshot) : (settle ops s).done.Sublist ops := by
  induction ops generalizing s with
  | nil => exact List.Sublist.refl _
  | cons op rest ih =>
    cases hconflict : op.conflict? s with
    | some live =>
      rw [settle_cons_conflict hconflict]
      exact List.nil_sublist _
    | none =>
      cases hpending : op.pending s with
      | true =>
        rw [settle_cons_taken hconflict hpending]
        exact (ih _).cons_cons op
      | false =>
        rw [settle_cons_skipped hconflict hpending]
        exact (ih s).cons op

/-- Every operation that is taken is pending at its turn. -/
theorem settle_eachTurn_pending (ops : List Operation) (s : Snapshot) :
    EachTurn (fun op s => op.pending s = true) (settle ops s).done s := by
  induction ops generalizing s with
  | nil => exact trivial
  | cons op rest ih =>
    cases hconflict : op.conflict? s with
    | some live =>
      rw [settle_cons_conflict hconflict]
      exact trivial
    | none =>
      cases hpending : op.pending s with
      | true =>
        rw [settle_cons_taken hconflict hpending]
        exact ⟨hpending, ih _⟩
      | false =>
        rw [settle_cons_skipped hconflict hpending]
        exact ih s

/-! ## Coherent operations -/

/-- Every operation is for something, and none takes back what another one is for. -/
structure Coherent (ops : List Operation) : Prop where
  wanting : ∀ op ∈ ops, op.wants ≠ []
  kept : ∀ a ∈ ops, ∀ b ∈ ops, ∀ f ∈ b.wants, ¬ a.Overwrites f

/-- Part of coherent operations is coherent. -/
theorem Coherent.subset {part : List Operation} (h : Coherent ops) (hsub : part ⊆ ops) :
    Coherent part :=
  ⟨fun a ha => h.wanting a (hsub ha), fun a ha b hb => h.kept a (hsub ha) b (hsub hb)⟩

/-- What a taken operation is for is shown after some of those taken after it. -/
theorem Coherent.shows_after {op : Operation} {rest later : List Operation} {f : Fact}
    (h : Coherent (op :: rest)) (hpending : op.pending s = true) (hlater : later ⊆ rest)
    (hturn : EachTurn (fun op s => op.pending s = true) later (op.apply s)) (hf : f ∈ op.wants) :
    (applyAll later (op.apply s)).Shows f := by
  have hkept : ∀ a ∈ later, ¬ a.Overwrites f := fun a ha =>
    h.kept a (List.mem_cons_of_mem _ (hlater ha)) op List.mem_cons_self f hf
  have heffect : (op.apply s).Shows f :=
    (shows_apply f hpending).mpr (.inr (mem_effects_of_mem_wants hf))
  exact shows_applyAll hturn hkept heffect

/-- Once coherent operations are settled, all that they are for is shown. -/
theorem settle_shows {taken : List Operation} (hcoherent : Coherent ops)
    (h : settle ops s = ⟨taken, none⟩) {op : Operation} (hop : op ∈ ops) {f : Fact}
    (hf : f ∈ op.wants) : (applyAll taken s).Shows f := by
  induction ops generalizing s taken with
  | nil => cases hop
  | cons a rest ih =>
    have hrest := hcoherent.subset (List.subset_cons_self a rest)
    obtain ⟨hconflict, ⟨hpending, later, rfl, hlater⟩ | ⟨hpending, hskip⟩⟩ := settle_cons_eq h
    · rcases List.mem_cons.mp hop with rfl | hmem
      · have hturn := settle_eachTurn_pending rest (op.apply s)
        have hsub := (settle_sublist rest (op.apply s)).subset
        rw [hlater] at hturn hsub
        exact hcoherent.shows_after hpending hsub hturn hf
      · have hshows : (applyAll later (a.apply s)).Shows f := ih hrest hlater hmem
        exact hshows
    · rcases List.mem_cons.mp hop with rfl | hmem
      · have hturn := settle_eachTurn_pending rest s
        have hsub := (settle_sublist rest s).subset
        rw [hskip] at hturn hsub
        have hkept : ∀ b ∈ taken, ¬ b.Overwrites f := fun b hb =>
          hcoherent.kept b (List.mem_cons_of_mem _ (hsub hb)) op List.mem_cons_self f hf
        exact shows_applyAll hturn hkept (shows_of_not_pending hconflict hpending hf)
      · exact ih hrest hskip hmem

/-- Settling coherent operations again, after the first of those that were taken, takes the others. -/
theorem settle_resume {taken : List Operation} (hcoherent : Coherent ops)
    (h : settle ops s = ⟨taken, none⟩) (k : ℕ) :
    settle ops (applyAll (taken.take k) s) = ⟨taken.drop k, none⟩ := by
  induction ops generalizing s taken k with
  | nil =>
    obtain rfl : [] = taken := (Progress.mk.inj h).1
    simp [settle]
  | cons op rest ih =>
    have hrest := hcoherent.subset (List.subset_cons_self op rest)
    have hwants := hcoherent.wanting op List.mem_cons_self
    obtain ⟨hconflict, ⟨hpending, later, rfl, hlater⟩ | ⟨hpending, hskip⟩⟩ := settle_cons_eq h
    · cases k with
      | zero => exact h
      | succ k =>
        -- the operation was carried out, so what it is for is shown and it is left out now
        have hturn := settle_eachTurn_pending rest (op.apply s)
        have hsub := (settle_sublist rest (op.apply s)).subset
        rw [hlater] at hturn hsub
        obtain ⟨hnone, hdone⟩ := settled_of_shows hwants fun f hf =>
          hcoherent.shows_after hpending (List.Subset.trans (List.take_subset k later) hsub)
            (hturn.take k) hf
        exact (settle_cons_skipped hnone hdone).trans (ih hrest hlater k)
    · have hturn := settle_eachTurn_pending rest s
      have hsub := (settle_sublist rest s).subset
      rw [hskip] at hturn hsub
      obtain ⟨hnone, hdone⟩ := settled_of_shows (s := applyAll (taken.take k) s) hwants fun f hf =>
        shows_applyAll (hturn.take k)
          (fun b hb => hcoherent.kept b
            (List.mem_cons_of_mem _ (hsub (List.mem_of_mem_take hb))) op List.mem_cons_self f hf)
          (shows_of_not_pending hconflict hpending hf)
      exact (settle_cons_skipped hnone hdone).trans (ih hrest hskip k)

/-! ## Steady facts -/

/-- No pending operation takes a fact back while it is shown. -/
def Steady (f : Fact) : Prop :=
  ∀ (op : Operation) (s : Snapshot), op.pending s = true → s.Shows f → ¬ op.Overwrites f

/-- Lasting facts are steady. -/
theorem steady_of_lasting {f : Fact} (h : f.Lasting) : Steady f :=
  fun _ _ _ _ => Operation.not_overwrites_of_lasting h

/-- The labels of a type are steady: an operation that would give it others is not pending. -/
theorem steady_labels (type : String) (labels : List String) : Steady (.labels type labels) := by
  intro op s hpending hshown hover
  cases op with
  | createEnumType schema type' labels' enumeration =>
    obtain ⟨rfl, -⟩ := hover
    have hlabels : s.labels? type = some labels := hshown
    simp [Operation.pending, hlabels] at hpending
  | _ => exact hover

/-- A steady fact that is shown stays so along operations that are each pending. -/
theorem Steady.shows_applyAll {f : Fact} (h : Steady f)
    (hturn : EachTurn (fun op s => op.pending s = true) ops s) (hf : s.Shows f) :
    (applyAll ops s).Shows f := by
  induction ops generalizing s with
  | nil => exact hf
  | cons op rest ih =>
    have hstep : (op.apply s).Shows f := (shows_apply f hturn.1).mpr (.inl ⟨hf, h op s hturn.1 hf⟩)
    exact ih hturn.2 hstep

/-- Once operations are settled, every steady fact that one of them is for is shown. -/
theorem settle_shows_of_steady {taken : List Operation} (h : settle ops s = ⟨taken, none⟩)
    {op : Operation} (hop : op ∈ ops) {f : Fact} (hf : f ∈ op.wants) (hsteady : Steady f) :
    (applyAll taken s).Shows f := by
  induction ops generalizing s taken with
  | nil => cases hop
  | cons a rest ih =>
    obtain ⟨hconflict, ⟨hpending, later, rfl, hlater⟩ | ⟨hpending, hskip⟩⟩ := settle_cons_eq h
    · rcases List.mem_cons.mp hop with rfl | hmem
      · have hturn := settle_eachTurn_pending rest (op.apply s)
        rw [hlater] at hturn
        have heffect : (op.apply s).Shows f :=
          (shows_apply f hpending).mpr (.inr (mem_effects_of_mem_wants hf))
        have hshows : (applyAll later (op.apply s)).Shows f := hsteady.shows_applyAll hturn heffect
        exact hshows
      · have hshows : (applyAll later (a.apply s)).Shows f := ih hlater hmem
        exact hshows
    · rcases List.mem_cons.mp hop with rfl | hmem
      · have hturn := settle_eachTurn_pending rest s
        rw [hskip] at hturn
        exact hsteady.shows_applyAll hturn (shows_of_not_pending hconflict hpending hf)
      · exact ih hskip hmem

end SchemaReconcile.Plan
