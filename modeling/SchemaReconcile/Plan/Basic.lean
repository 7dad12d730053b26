import SchemaReconcile.Plan.Agenda

/-!
# Plans

An agenda is settled against a snapshot step by step: an operation whose effect the predicted snapshot
shows is left out, any other joins the plan and is applied to the prediction, and an enum type with other
labels refuses the plan.  The plan is what was taken, sorted by phase; the order within a phase stays.
-/

namespace SchemaReconcile.Plan

open Catalog (Operation Snapshot Phase)
open Settings (Options)

/-- The fault of an enum type with other labels. -/
def driftFault (op : Operation) (live : List String) : Fault :=
  match op with
  | .createEnumType _ _ labels enumeration => .enumDrift enumeration live labels
  | op => .enumDrift op.describe live []

/-- The operations of the agenda that are pending, each when its turn comes, up to a conflict. -/
def settle : List Operation → Snapshot → Progress Operation Fault
  | [], _ => ⟨[], none⟩
  | op :: rest, s =>
    match op.conflict? s with
    | some live => ⟨[], some (driftFault op live)⟩
    | none =>
      if op.pending s then
        let later := settle rest (op.apply s)
        ⟨op :: later.done, later.fault⟩
      else settle rest s

/-- Operations sorted by phase; the order within a phase stays. -/
def byPhase (ops : List Operation) : List Operation :=
  Phase.all.flatMap fun phase => ops.filter fun op => op.phase == phase

/-- The operations that bring a schema into line with a model. -/
def plan (options : Options) (m : Model) (s : Snapshot) : Except Fault (List Operation) :=
  match indexLimitFault? options m with
  | some fault => .error fault
  | none =>
    let steps := agenda options m
    let settled := settle (steps.done.filterMap Step.operation?) s
    match settled.fault, steps.fault with
    | some fault, _ => .error fault
    | none, some fault => .error fault
    | none, none => .ok (byPhase settled.done)

/-- How many operations of each phase there are. -/
def phaseCounts (ops : List Operation) : List (String × Nat) :=
  Phase.all.map fun phase => (phase.name, (ops.filter fun op => op.phase == phase).length)

end SchemaReconcile.Plan
