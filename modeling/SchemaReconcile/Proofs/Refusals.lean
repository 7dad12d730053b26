import SchemaReconcile.Proofs.Results

/-!
# Refusals

What can be said of every fault of a computation (`Refuses`) is put together from its steps: a sequence
refuses as its steps do, and so does a step taken for each item of a list.  A later step may use that the
earlier ones succeeded.
-/

namespace SchemaReconcile

variable {α β ε : Type} {P : ε → Prop}

/-- A computation refuses only in a certain way: each of its faults has a property. -/
def Refuses (P : ε → Prop) (x : Except ε α) : Prop := ∀ fault, x = .error fault → P fault

/-- The fault of a computation that has one. -/
def faultOf? : Except ε α → Option ε
  | .error fault => some fault
  | .ok _ => none

/-- A computation with a fault is refused with it. -/
theorem eq_error_of_faultOf? {x : Except ε α} {fault : ε} (h : faultOf? x = some fault) :
    x = .error fault := by
  cases x with
  | error e => exact congrArg _ (Option.some.inj h)
  | ok a => cases h

namespace Refuses

/-- A result is no refusal. -/
theorem ok (a : α) : Refuses P (.ok a : Except ε α) := nofun

/-- A refusal has the property of its fault. -/
theorem error {fault : ε} (h : P fault) : Refuses P (.error fault : Except ε α) := by
  rintro _ ⟨⟩
  exact h

/-- Two steps in sequence refuse as the first does, or as the second does on the result of the first. -/
theorem bind {x : Except ε α} {f : α → Except ε β} (hx : Refuses P x)
    (hf : ∀ a, x = .ok a → Refuses P (f a)) : Refuses P (x >>= f) := by
  cases hxa : x with
  | error e => exact error (hx e hxa)
  | ok a => exact hf a hxa

/-- A function of a result refuses as the result does. -/
theorem map {x : Except ε α} {f : α → β} (hx : Refuses P x) : Refuses P (f <$> x) := by
  rw [← bind_pure_comp]
  exact bind hx fun a _ => ok (f a)

/-- A computation whose faults are given other names refuses as it does. -/
theorem mapError {ε' : Type} {Q : ε' → Prop} {x : Except ε α} {f : ε → ε'}
    (hx : Refuses (fun fault => Q (f fault)) x) : Refuses Q (x.mapError f) := by
  cases hxa : x with
  | error e => exact error (hx e hxa)
  | ok a => exact ok a

/-- A step taken for every item of a list refuses as it does on one of them. -/
theorem mapM {f : α → Except ε β} {xs : List α} (h : ∀ x ∈ xs, Refuses P (f x)) :
    Refuses P (xs.mapM f) := by
  induction xs with
  | nil => exact ok []
  | cons x xs ih =>
    obtain ⟨hx, hxs⟩ := List.forall_mem_cons.mp h
    rw [List.mapM_cons]
    exact bind hx fun y _ => bind (ih hxs) fun ys _ => ok (y :: ys)

/-- A check of every item of a list refuses as it does on one of them. -/
theorem forIn {f : α → Unit → Except ε (ForInStep Unit)} {xs : List α}
    (h : ∀ x ∈ xs, Refuses P (f x ())) : Refuses P (ForIn.forIn xs () f) := by
  induction xs with
  | nil => exact ok _
  | cons x xs ih =>
    obtain ⟨hx, hxs⟩ := List.forall_mem_cons.mp h
    rw [List.forIn_cons]
    refine bind hx fun step _ => ?_
    cases step with
    | done _ => exact ok _
    | yield _ => exact ih hxs

/-- Results that are kept up to the first fault are refused as the step refuses one of the items. -/
theorem progress {f : α → Except ε β} {xs : List α} (h : ∀ x ∈ xs, Refuses P (f x)) :
    Refuses P (Progress.of f xs).all := by
  induction xs with
  | nil => exact ok []
  | cons x xs ih =>
    obtain ⟨hx, hxs⟩ := List.forall_mem_cons.mp h
    rw [Progress.of]
    cases hfx : f x with
    | error e => exact error (hx e hfx)
    | ok y =>
      unfold Progress.all
      cases hfault : (Progress.of f xs).fault with
      | none => exact ok _
      | some e => exact error (ih hxs e (by rw [Progress.all, hfault]))

end Refuses

end SchemaReconcile
