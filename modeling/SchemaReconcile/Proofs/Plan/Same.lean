import SchemaReconcile.Plan.Basic
import SchemaReconcile.Proofs.Catalog.Rows

/-!
# Plans against the same snapshot

Snapshots that are the same stay so under every operation (`Snapshot.Same.apply`), and an operation is pending
in one, or conflicts with it, when it does so in the other.  So each step of an agenda is decided alike, and
plans do not depend on the order of the entries of a snapshot (`plan_eq_of_same`).
-/

namespace SchemaReconcile

namespace Catalog

/-! ## Entries that are found alike -/

section Entries

variable {κ α : Type} [BEq κ] [LawfulBEq κ] {a b : List (κ × α)}

/-- Entries are found alike after a value was put for a key. -/
theorem lookup_put_congr (h : ∀ k, a.lookup k = b.lookup k) (key : κ) (value : α) (k : κ) :
    (put key value a).lookup k = (put key value b).lookup k := by
  rw [lookup_put, lookup_put, h]

/-- Entries are found alike after a new value for a key. -/
theorem lookup_putNew_congr (h : ∀ k, a.lookup k = b.lookup k) (key : κ) (value : α) (k : κ) :
    (putNew key value a).lookup k = (putNew key value b).lookup k := by
  rw [lookup_putNew, lookup_putNew, h, h]

/-- Entries are found alike after a change of the value of a key. -/
theorem lookup_alter_congr (h : ∀ k, a.lookup k = b.lookup k) (key : κ) (start : α) (change : α → α)
    (k : κ) : (alter key start change a).lookup k = (alter key start change b).lookup k := by
  rw [lookup_alter, lookup_alter, h, h]

/-- Sets have the same members after one more member. -/
theorem mem_addMember_congr {xs ys : List κ} (h : ∀ k, k ∈ xs ↔ k ∈ ys) (x k : κ) :
    k ∈ addMember x xs ↔ k ∈ addMember x ys := by
  rw [mem_addMember, mem_addMember, h]

end Entries

namespace Snapshot.Same

variable {s t : Snapshot}

theorem symm (h : s.Same t) : t.Same s where
  schema := h.schema.symm
  schemaExists := h.schemaExists.symm
  labels type := (h.labels type).symm
  typeComments type := (h.typeComments type).symm
  columns table := (h.columns table).symm
  indexes name := (h.indexes name).symm
  constraints key := (h.constraints key).symm
  triggers key := (h.triggers key).symm

theorem trans {u : Snapshot} (h : s.Same t) (h' : t.Same u) : s.Same u where
  schema := h.schema.trans h'.schema
  schemaExists := h.schemaExists.trans h'.schemaExists
  labels type := (h.labels type).trans (h'.labels type)
  typeComments type := (h.typeComments type).trans (h'.typeComments type)
  columns table := (h.columns table).trans (h'.columns table)
  indexes name := (h.indexes name).trans (h'.indexes name)
  constraints key := (h.constraints key).trans (h'.constraints key)
  triggers key := (h.triggers key).trans (h'.triggers key)

/-- Snapshots that are the same stay so under an operation. -/
theorem apply (h : s.Same t) (op : Operation) : (op.apply s).Same (op.apply t) := by
  cases op with
  | createSchema schema => exact { h with schemaExists := rfl }
  | createEnumType schema type labels enumeration =>
    exact { h with labels := lookup_put_congr h.labels type labels }
  | commentOnType schema type comment =>
    exact { h with typeComments := lookup_put_congr h.typeComments type (some comment) }
  | createTable schema table columns comment =>
    have htables : ∀ k, _ := lookup_put_congr h.columns table (columns.map (·.name))
    unfold Operation.apply
    dsimp only
    split
    · exact { h with columns := htables }
    · exact { h with
        columns := htables
        indexes := mem_addMember_congr h.indexes _
        constraints := lookup_putNew_congr h.constraints _ none }
  | addColumn schema table column =>
    exact { h with columns := lookup_alter_congr h.columns table [] (· ++ [column.name]) }
  | createIndex schema table name columns unique method late =>
    exact { h with indexes := mem_addMember_congr h.indexes name }
  | addForeignKey schema table constraint column refTable refColumn onDelete =>
    exact { h with constraints := lookup_putNew_congr h.constraints _ none }
  | commentOnConstraint schema table constraint comment =>
    exact { h with constraints := lookup_put_congr h.constraints _ (some comment) }
  | createUpdatedTrigger schema table =>
    exact { h with triggers := mem_addMember_congr h.triggers _ }
  | blank => exact h

/-- An operation is pending in both of two snapshots that are the same, or in none. -/
theorem pending (h : s.Same t) (op : Operation) : op.pending s = op.pending t := by
  have hcontains : ∀ {α : Type} [BEq α] [LawfulBEq α] {xs ys : List α} (k : α),
      (∀ k, k ∈ xs ↔ k ∈ ys) → xs.contains k = ys.contains k := by
    intro α _ _ xs ys k hmem
    rw [Bool.eq_iff_iff, List.contains_iff_mem, List.contains_iff_mem, hmem]
  cases op with
  | createSchema schema => simp only [Operation.pending, h.schemaExists]
  | createEnumType schema type labels enumeration => simp only [Operation.pending, h.labels]
  | commentOnType schema type comment => simp only [Operation.pending, typeComment?, h.typeComments]
  | createTable schema table columns comment => simp only [Operation.pending, hasTable, h.columns]
  | addColumn schema table column => simp only [Operation.pending, hasColumn, h.columns]
  | createIndex schema table name columns unique method late =>
    simp only [Operation.pending, hasIndex, hcontains name h.indexes]
  | addForeignKey schema table constraint column refTable refColumn onDelete =>
    simp only [Operation.pending, hasConstraint, h.constraints]
  | commentOnConstraint schema table constraint comment =>
    simp only [Operation.pending, constraintComment?, h.constraints]
  | createUpdatedTrigger schema table =>
    simp only [Operation.pending, hasTrigger, hcontains _ h.triggers]
  | blank => rfl

/-- An operation conflicts with both of two snapshots that are the same, or with none. -/
theorem conflict? (h : s.Same t) (op : Operation) : op.conflict? s = op.conflict? t := by
  cases op with
  | createEnumType schema type labels enumeration => simp only [Operation.conflict?, h.labels]
  | _ => rfl

end Snapshot.Same

end Catalog

namespace Plan

open Catalog (Operation Snapshot)

variable {s t : Snapshot}

/-- An agenda is settled alike against snapshots that are the same. -/
theorem settle_eq_of_same (h : s.Same t) (ops : List Operation) : settle ops s = settle ops t := by
  induction ops generalizing s t with
  | nil => rfl
  | cons op rest ih =>
    unfold settle
    rw [h.conflict? op, h.pending op, ih h, ih (h.apply op)]

/-- Plans against snapshots that are the same are the same. -/
theorem plan_eq_of_same (h : s.Same t) (options : Settings.Options) (m : Model) :
    plan options m s = plan options m t := by
  unfold plan
  dsimp only
  rw [settle_eq_of_same h]

end Plan

end SchemaReconcile
