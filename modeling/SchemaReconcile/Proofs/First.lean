import SchemaReconcile.Proofs.Results

/-!
# The first item with a property

Plans and records are refused for the first of several items that give a reason.  `IsFirst` names this item;
there is one whenever some item has the property (`exists_isFirst`).  A run of steps that may fail does so at
the first item that is refused, where the refusal of an item does not depend on what the steps before it made
(`foldlM_eq_error_iff`).
-/

namespace SchemaReconcile

namespace Plan

/-- An item is the first of a list with a property. -/
def IsFirst {α : Type} (P : α → Prop) (items : List α) (a : α) : Prop :=
  ∃ before after, items = before ++ a :: after ∧ P a ∧ ∀ b ∈ before, ¬ P b

namespace IsFirst

variable {α : Type} {P : α → Prop} {items : List α} {a : α}

/-- The first item with a property has it. -/
theorem holds (h : IsFirst P items a) : P a :=
  let ⟨_, _, _, ha, _⟩ := h
  ha

/-- The first item with a property is one of the list. -/
theorem mem (h : IsFirst P items a) : a ∈ items := by
  obtain ⟨before, after, rfl, -⟩ := h
  simp

/-- The first item with a property stays the first before more items. -/
theorem append (h : IsFirst P items a) (more : List α) : IsFirst P (items ++ more) a := by
  obtain ⟨before, after, rfl, ha, hbefore⟩ := h
  exact ⟨before, after ++ more, by simp, ha, hbefore⟩

end IsFirst

/-- The first item of a list is its head, or the first of the others where the head does not have the
property. -/
theorem isFirst_cons_iff {α : Type} {P : α → Prop} {a b : α} {items : List α} :
    IsFirst P (b :: items) a ↔ P b ∧ a = b ∨ ¬ P b ∧ IsFirst P items a := by
  constructor
  · rintro ⟨before, after, hitems, ha, hbefore⟩
    cases before with
    | nil =>
      obtain ⟨rfl, -⟩ := List.cons.inj hitems
      exact .inl ⟨ha, rfl⟩
    | cons c before =>
      obtain ⟨rfl, rfl⟩ := List.cons.inj hitems
      obtain ⟨hb, hbefore⟩ := List.forall_mem_cons.mp hbefore
      exact .inr ⟨hb, before, after, rfl, ha, hbefore⟩
  · rintro (⟨hb, rfl⟩ | ⟨hb, before, after, rfl, ha, hbefore⟩)
    · exact ⟨[], items, rfl, hb, by simp⟩
    · exact ⟨b :: before, after, rfl, ha, List.forall_mem_cons.mpr ⟨hb, hbefore⟩⟩

/-- Some item has a property exactly when there is a first one. -/
theorem exists_isFirst {α : Type} {P : α → Prop} {items : List α} :
    (∃ a, IsFirst P items a) ↔ ∃ a ∈ items, P a := by
  constructor
  · rintro ⟨a, ha⟩
    exact ⟨a, ha.mem, ha.holds⟩
  · intro h
    induction items with
    | nil =>
      obtain ⟨a, ha, -⟩ := h
      cases ha
    | cons b rest ih =>
      by_cases hb : P b
      · exact ⟨b, isFirst_cons_iff.mpr (.inl ⟨hb, rfl⟩)⟩
      · rw [List.exists_mem_cons_iff, or_iff_right hb] at h
        obtain ⟨a, ha⟩ := ih h
        exact ⟨a, isFirst_cons_iff.mpr (.inr ⟨hb, ha⟩)⟩

end Plan

open Plan (IsFirst isFirst_cons_iff)

variable {α β ε : Type}

/-- A sequence of two steps fails when the first does, or the second after it. -/
theorem bind_eq_error {x : Except ε α} {g : α → Except ε β} {e : ε} :
    (x >>= g) = .error e ↔ x = .error e ∨ ∃ a, x = .ok a ∧ g a = .error e := by
  cases x with
  | error e' => simp [bind, Except.bind]
  | ok a => simp [bind, Except.bind]

/-- Steps whose faults do not depend on what the earlier ones made fail at the first item that is refused. -/
theorem foldlM_eq_error_iff {step : β → α → Except ε β} {R : α → ε → Prop}
    (hstep : ∀ b a e, step b a = .error e ↔ R a e) {xs : List α} {b : β} {e : ε} :
    xs.foldlM step b = .error e ↔ ∃ x, IsFirst (fun a => ∃ e', R a e') xs x ∧ R x e := by
  induction xs generalizing b with
  | nil =>
    refine iff_of_false nofun ?_
    rintro ⟨x, hx, -⟩
    cases hx.mem
  | cons x xs ih =>
    rw [List.foldlM_cons, bind_eq_error]
    constructor
    · rintro (hx | ⟨b', hx, hrest⟩)
      · have hR := (hstep b x e).mp hx
        exact ⟨x, isFirst_cons_iff.mpr (.inl ⟨⟨e, hR⟩, rfl⟩), hR⟩
      · obtain ⟨y, hy, hR⟩ := ih.mp hrest
        refine ⟨y, isFirst_cons_iff.mpr (.inr ⟨?_, hy⟩), hR⟩
        rintro ⟨e', hR'⟩
        rw [(hstep b x e').mpr hR'] at hx
        cases hx
    · rintro ⟨y, hy, hR⟩
      obtain ⟨-, rfl⟩ | ⟨hx, hy⟩ := isFirst_cons_iff.mp hy
      · exact .inl ((hstep b y e).mpr hR)
      · cases hfirst : step b x with
        | error e' => exact absurd ⟨e', (hstep b x e').mp hfirst⟩ hx
        | ok b' => exact .inr ⟨b', rfl, ih.mpr ⟨y, hy, hR⟩⟩

end SchemaReconcile
