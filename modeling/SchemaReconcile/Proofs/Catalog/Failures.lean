import SchemaReconcile.Proofs.Catalog.Memory
import SchemaReconcile.Proofs.Catalog.Session
import SchemaReconcile.Proofs.Plan.Rendered

/-!
# Operations that fail in memory

An operation that is carried out in memory fails exactly when it has no statements, and there are three ways to have
none (`Refused`).  Nothing of it is carried out, as in a database.  But a catalog in memory notes an operation before it
asks for the statements, so that it stays among the operations given (`failed_operation_noted`), and the log no longer
says what was carried out.

A list of operations ends at the first one that fails, and what is left is the state after those before with this one
noted (`executeAll_fault_iff`).  The operations of a plan are none of these (`not_refused_of_shaped`), so that no
reconciliation ends in this way.
-/

namespace SchemaReconcile

namespace Catalog

open Operation (applyAll)

namespace Operation

variable {op : Operation} {fault : StatementFault}

/-- An operation has no statements: it says nothing of what it does, the method of its index is no safe name, or what
it asks for when a row is deleted is no action. -/
inductive Refused : Operation → StatementFault → Prop
  | blank : Refused .blank .blank
  | method {schema table name : String} {columns : List String} {unique late : Bool} {method : String}
      (hsome : method ≠ "") (hspelled : Naming.isSafe method = false) :
      Refused (.createIndex schema table name columns unique (some method) late)
        (.indexMethod ⟨"index method", Text.quoted method⟩)
  | action {schema table constraint column refTable refColumn onDelete : String}
      (hunknown : onDelete ∉ Sql.deleteActions) :
      Refused (.addForeignKey schema table constraint column refTable refColumn onDelete) (.deleteAction onDelete)

/-- An index cannot be created exactly when it has a method that is no safe name. -/
theorem createIndex_eq_error_iff {schema table name : String} {columns : List String} {unique : Bool}
    {method : Option String} {e : Naming.UnsafeName} :
    Sql.createIndex schema table columns name unique method = .error e ↔
      ∃ m, method = some m ∧ m ≠ "" ∧ Naming.isSafe m = false ∧ e = ⟨"index method", Text.quoted m⟩ := by
  cases method with
  | none => simp [Sql.createIndex, pure, Except.pure, bind, Except.bind]
  | some m =>
    by_cases hempty : m = ""
    · simp [Sql.createIndex, hempty, pure, Except.pure, bind, Except.bind]
    · cases hsafe : Naming.isSafe m with
      | true => simp [Sql.createIndex, Naming.safe, hempty, hsafe, pure, Except.pure, bind, Except.bind]
      | false => simp [Sql.createIndex, Naming.safe, hempty, hsafe, bind, Except.bind, @eq_comm _ _ e]

/-- The operations without statements. -/
theorem statements_eq_error_iff : op.statements = .error fault ↔ op.Refused fault := by
  constructor
  · intro h
    cases op with
    | createIndex schema table name columns unique method late =>
      rw [statements] at h
      split at h
      · cases h
      · next e he =>
        obtain ⟨m, rfl, hsome, hspelled, rfl⟩ := createIndex_eq_error_iff.mp he
        cases h
        exact .method hsome hspelled
    | addForeignKey schema table constraint column refTable refColumn onDelete =>
      rw [statements] at h
      split at h
      · cases h
      · next hnone =>
        cases h
        refine .action fun hknown => ?_
        rw [Sql.addForeignKey?, if_pos (by simpa using hknown)] at hnone
        cases hnone
    | blank =>
      cases h
      exact .blank
    | _ => cases h
  · intro h
    cases h with
    | blank => rfl
    | method hsome hspelled =>
      rw [statements, createIndex_eq_error_iff.mpr ⟨_, rfl, hsome, hspelled, rfl⟩]
    | action hunknown => rw [statements, Sql.addForeignKey?, if_neg (by simpa using hunknown)]

/-- What comes from a fixed choice is never refused. -/
theorem not_refused_of_shaped (h : op.Shaped) : ¬ op.Refused fault := by
  intro hrefused
  cases hrefused with
  | blank => exact h
  | method hsome hspelled =>
    obtain ⟨known, rfl⟩ := h _ rfl
    have hsafe : ∀ known : IndexMethod, Naming.isSafe known.name = true := fun known => by cases known <;> decide
    rw [hsafe known] at hspelled
    cases hspelled
  | action hunknown => exact hunknown h

end Operation

namespace Memory

variable {c c' : Memory} {op : Operation} {ops : List Operation} {fault : StatementFault}

/-- An operation fails in memory exactly when it has no statements, and all that it leaves is a note of itself. -/
theorem execute_fault_iff :
    c.execute op = (c', some fault) ↔ op.Refused fault ∧ c' = { c with operations := c.operations ++ [op] } := by
  rw [← Operation.statements_eq_error_iff, execute]
  cases op.statements with
  | ok statements => simp
  | error e => simp [and_comm, eq_comm]

/-- A list of operations ends at the first one that fails: those before are carried out, and it is noted behind
them. -/
theorem executeAll_fault_iff :
    c.executeAll ops = (c', some fault) ↔
      ∃ before own op after, ops = before ++ op :: after ∧
        List.Forall₂ (fun op statements => op.statements = .ok statements) before own ∧ op.Refused fault ∧
        c' = { snapshot := applyAll before c.snapshot
               operations := c.operations ++ before ++ [op]
               statements := c.statements ++ own.flatten } := by
  constructor
  · intro h
    induction ops generalizing c with
    | nil => cases h
    | cons op rest ih =>
      rw [executeAll] at h
      split at h
      · next c₁ fault₁ hfault =>
        cases h
        obtain ⟨hrefused, rfl⟩ := execute_fault_iff.mp hfault
        exact ⟨[], [], op, rest, rfl, .nil, hrefused, by simp [applyAll]⟩
      · next c₁ hdone =>
        have halone : c.executeAll [op] = (c₁, none) := by
          rw [executeAll, hdone]
          rfl
        obtain ⟨statements, hstatements⟩ := exists_statements halone op List.mem_cons_self
        obtain ⟨before, own, failed, after, rfl, hown, hrefused, rfl⟩ := ih h
        refine ⟨op :: before, statements :: own, failed, after, rfl, .cons hstatements hown, hrefused, ?_⟩
        rw [execute, hstatements] at hdone
        obtain rfl := (Prod.mk.inj hdone).1
        simp [applyAll]
  · rintro ⟨before, own, op, after, rfl, hown, hrefused, rfl⟩
    rw [executeAll_append hown, executeAll, execute_fault_iff.mpr ⟨hrefused, rfl⟩]

end Memory

end Catalog

/-! ## Operations of plans -/

namespace Plan

open Catalog (Memory Operation Snapshot StatementFault)
open Settings (Options)

variable {options : Options} {m : Model} {s : Snapshot} {ops : List Operation} {fault : StatementFault}

/-- The operations of a plan all have statements. -/
theorem not_refused_of_mem_plan (hkeys : ∀ e ∈ m.entities, e.primaryKeys.length = 1)
    (hplan : plan options m s = .ok ops) {op : Operation} (hop : op ∈ ops) : ¬ op.Refused fault := by
  have hsub := settle_sublist (wanted options m) s
  rw [settle_of_plan hplan] at hsub
  exact Operation.not_refused_of_shaped (placed_of_mem_wanted hkeys (hsub.subset hop)).shaped

/-- A reconciliation never ends at an operation. -/
theorem reconcile_ne_statement (hkeys : ∀ e ∈ m.entities, e.primaryKeys.length = 1) (c : Memory) :
    (c.reconcile options m).2 ≠ .error (.statement fault) := by
  intro h
  rw [Memory.reconcile] at h
  split at h
  · cases h
  · next ops hplan =>
    split at h
    · next c' fault' hrun =>
      obtain ⟨before, own, op, after, rfl, -, hrefused, -⟩ := Memory.executeAll_fault_iff.mp hrun
      exact not_refused_of_mem_plan hkeys hplan (by simp) hrefused
    · cases h

/-- An operation that fails in memory leaves the statements and the snapshot as they were, but stays among the
operations given; a database is told to roll back, and no statement.  No plan has such an operation. -/
theorem failed_operation_noted {c c' : Memory} {op : Operation} (h : c.execute op = (c', some fault)) :
    c'.statements = c.statements ∧ c'.snapshot = c.snapshot ∧ c'.operations = c.operations ++ [op] ∧ c' ≠ c ∧
    op.Refused fault ∧
    (∀ server ran, Catalog.Session.runOperation server ran op = ⟨[.rollback], ran, some (.statement fault)⟩) ∧
    ∀ options m s ops, (∀ e ∈ m.entities, e.primaryKeys.length = 1) → plan options m s = .ok ops → op ∉ ops := by
  obtain ⟨hrefused, rfl⟩ := Memory.execute_fault_iff.mp h
  refine ⟨rfl, rfl, rfl, ?_, hrefused, fun server ran => ?_, fun options m s ops hkeys hplan hop =>
    not_refused_of_mem_plan hkeys hplan hop hrefused⟩
  · intro hsame
    have hoperations := congrArg Memory.operations hsame
    simp at hoperations
  · rw [Catalog.Session.runOperation, Operation.statements_eq_error_iff.mpr hrefused]

/-- A foreign key with an action that there is not. -/
def unknownAction : Operation :=
  .addForeignKey "public" "post" "post_author_id_fkey" "author_id" "author" "id" "EXPLODE"

/-- A new catalog refuses the foreign key, and a database is told to roll back. -/
theorem failed_operation_noted_unknownAction :
    ∃ c', newCatalog.execute unknownAction = (c', some (.deleteAction "EXPLODE")) ∧ c'.snapshot = newCatalog.snapshot ∧
      (Catalog.Session.runOperation {} 0 unknownAction).events = [.rollback] := by
  have hrun : newCatalog.execute unknownAction =
      ({ newCatalog with operations := [unknownAction] }, some (.deleteAction "EXPLODE")) := rfl
  obtain ⟨-, hsnapshot, -, -, -, htold, -⟩ := failed_operation_noted hrun
  exact ⟨_, hrun, hsnapshot, congrArg (·.events) (htold {} 0)⟩

/-- The log of a new catalog is not what it was before the foreign key was refused. -/
theorem unknownAction_kept :
    (newCatalog.execute unknownAction).2 = some (.deleteAction "EXPLODE") ∧ newCatalog.operations = [] ∧
      (newCatalog.execute unknownAction).1.operations = [unknownAction] :=
  ⟨rfl, rfl, rfl⟩

end Plan

end SchemaReconcile
