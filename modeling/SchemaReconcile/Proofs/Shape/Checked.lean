import Mathlib.Data.List.Forall2
import SchemaReconcile.Shape.Basic

/-!
# Read shapes

A value is read as a shape when all its parts are.  The faults of parts are collected, so a reader goes on after the
first of them; but it succeeds exactly when each part does (`Checked.seq_eq_ok`), a list when each of its items does
(`readItems_eq_ok_iff`), and a field of a record when its value is there and does (`required_eq_ok_iff`).
-/

namespace SchemaReconcile.Shape

variable {α β : Type}

namespace Checked

/-- A function applied to a result succeeds when both are there. -/
theorem seq_eq_ok {f : Checked (α → β)} {x : Checked α} {b : β} :
    f <*> x = .ok b ↔ ∃ g a, f = .ok g ∧ x = .ok a ∧ g a = b := by
  cases f with
  | faults first =>
    cases x with
    | faults later => simp [Seq.seq, apply]
    | ok a => simp [Seq.seq, apply]
  | ok g =>
    cases x with
    | faults later => simp [Seq.seq, apply]
    | ok a => simp [Seq.seq, apply]

/-- A function of a result succeeds when the result is there. -/
theorem map_eq_ok {f : α → β} {x : Checked α} {b : β} : f <$> x = .ok b ↔ ∃ a, x = .ok a ∧ f a = b := by
  cases x with
  | faults all => simp [Functor.map, map]
  | ok a => simp [Functor.map, map]

/-- A further rule succeeds on a result that is there. -/
theorem andThen_eq_ok {x : Checked α} {f : α → Checked β} {b : β} :
    x.andThen f = .ok b ↔ ∃ a, x = .ok a ∧ f a = .ok b := by
  cases x with
  | faults all => simp [andThen]
  | ok a => simp [andThen]

/-- A place does not change a result. -/
theorem inside_eq_ok {x : Checked α} {step : Step} {a : α} : x.inside step = .ok a ↔ x = .ok a := by
  cases x with
  | faults all => simp [inside]
  | ok b => simp [inside]

end Checked

open Checked

variable {read : Value → Checked α} {name : String} {record : List (Value × Value)} {default a : α} {v : Value}

/-- A field that may be left out has what its value says, or the default. -/
theorem withDefault_eq_ok (h : withDefault name default read record = .ok a) :
    a = default ∨ ∃ v, read v = .ok a := by
  unfold withDefault at h
  split at h
  · exact .inr ⟨_, inside_eq_ok.mp h⟩
  · exact .inl (Checked.ok.inj h).symm

/-- A field that may be left out has what its value says if it is there. -/
theorem withDefault_of_found (hv : Value.entry? (.text name) record = some v) :
    withDefault name default read record = .ok a ↔ read v = .ok a := by
  rw [withDefault, hv]
  exact inside_eq_ok

/-- A field that must be there has what its value says. -/
theorem required_eq_ok_iff :
    required name read record = .ok a ↔ ∃ v, Value.entry? (.text name) record = some v ∧ read v = .ok a := by
  rw [required, inside_eq_ok]
  cases hentry : Value.entry? (.text name) record with
  | none => simp [fault]
  | some v => simp

/-- Items are read when each of them is. -/
theorem readItems_eq_ok_iff {n : Int} {items : List Value} {as : List α} :
    readItems read n items = .ok as ↔ List.Forall₂ (fun v a => read v = .ok a) items as := by
  induction items generalizing n as with
  | nil =>
    rw [List.forall₂_nil_left_iff]
    exact ⟨fun h => (Checked.ok.inj h).symm, fun h => h ▸ rfl⟩
  | cons v rest ih =>
    rw [List.forall₂_cons_left_iff]
    refine seq_eq_ok.trans ⟨?_, ?_⟩
    · rintro ⟨_, more, hfirst, hmore, rfl⟩
      obtain ⟨a, ha, rfl⟩ := Checked.map_eq_ok.mp hfirst
      exact ⟨a, more, inside_eq_ok.mp ha, ih.mp hmore, rfl⟩
    · rintro ⟨a, more, ha, hmore, rfl⟩
      exact ⟨_, more, Checked.map_eq_ok.mpr ⟨a, inside_eq_ok.mpr ha, rfl⟩, ih.mpr hmore, rfl⟩

end SchemaReconcile.Shape
