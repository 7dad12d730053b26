/-!
# Results up to the first fault

A step that may fail, taken for each item of a list in order, stops at the first fault.  The results
before it still count, for a journal of what was done.
-/

namespace SchemaReconcile

/-- The results of steps up to the first fault, and that fault. -/
structure Progress (α ε : Type) where
  done : List α
  fault : Option ε
  deriving Repr

namespace Progress

variable {α β ε : Type}

/-- A step taken for each item in order, up to the first fault. -/
def of (step : α → Except ε β) : List α → Progress β ε
  | [] => ⟨[], none⟩
  | a :: rest =>
    match step a with
    | .error e => ⟨[], some e⟩
    | .ok b =>
      let later := of step rest
      ⟨b :: later.done, later.fault⟩

/-- The results of several parts in order, up to the first fault. -/
def join : List (Progress α ε) → Progress α ε
  | [] => ⟨[], none⟩
  | part :: rest =>
    match part.fault with
    | some e => ⟨part.done, some e⟩
    | none =>
      let later := join rest
      ⟨part.done ++ later.done, later.fault⟩

/-- Results that come together or not at all. -/
def whole : Except ε (List α) → Progress α ε
  | .ok items => ⟨items, none⟩
  | .error e => ⟨[], some e⟩

/-- All results, or the first fault. -/
def all (p : Progress α ε) : Except ε (List α) :=
  match p.fault with
  | none => .ok p.done
  | some e => .error e

end Progress

end SchemaReconcile
