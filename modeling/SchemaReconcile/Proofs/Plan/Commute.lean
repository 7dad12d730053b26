import Mathlib.Data.List.Perm.Basic
import SchemaReconcile.Proofs.Plan.Order
import SchemaReconcile.Proofs.Plan.Same

/-!
# Turns in another order

Each operation is about one object: the schema, an enum type, or a table with all that belongs to it
(`objectOf`).  Its turn leaves every other object as it is, and what it makes of its own object depends on
that object alone.  Index names are the one thing that all objects share, and they are only ever added.  So
operations about different objects may have their turns in either order (`swaps_of_ne`).

Two foreign keys may change places even on one table, and so may deferred operations that do not comment on
one constraint differently.  Items whose operations may change places pairwise may have their turns in any
order at all (`turns_flatMap_same`).
-/

namespace SchemaReconcile.Plan

open Catalog (Operation Snapshot)
open Catalog.Operation (applyAll)

/-! ## Objects -/

/-- What an operation is about. -/
inductive Object where
  | schema
  | enumType (name : String)
  | table (name : String)
  deriving DecidableEq

/-- The object that an operation is about. -/
def objectOf : Operation → Object
  | .createSchema _ => .schema
  | .createEnumType _ type _ _ => .enumType type
  | .commentOnType _ type _ => .enumType type
  | .createTable _ table _ _ => .table table
  | .addColumn _ table _ => .table table
  | .createIndex _ table _ _ _ _ _ => .table table
  | .addForeignKey _ table _ _ _ _ _ => .table table
  | .commentOnConstraint _ table _ _ => .table table
  | .createUpdatedTrigger _ table => .table table
  | .blank => .schema

/-- Two snapshots are the same as far as an object goes; indexes belong to no object. -/
def SameOf : Object → Snapshot → Snapshot → Prop
  | .schema, s, t => s.schemaExists = t.schemaExists
  | .enumType type, s, t => s.labels? type = t.labels? type ∧
      s.typeComments.lookup type = t.typeComments.lookup type
  | .table table, s, t => s.columns? table = t.columns? table ∧
      (∀ name, s.constraints.lookup (table, name) = t.constraints.lookup (table, name)) ∧
      ∀ name, (table, name) ∈ s.triggers ↔ (table, name) ∈ t.triggers

variable {a b op : Operation} {o : Object} {s t : Snapshot}

theorem SameOf.symm (h : SameOf o s t) : SameOf o t s := by
  cases o with
  | schema => exact Eq.symm h
  | enumType type => exact ⟨h.1.symm, h.2.symm⟩
  | table table => exact ⟨h.1.symm, fun name => (h.2.1 name).symm, fun name => (h.2.2 name).symm⟩

theorem SameOf.trans {u : Snapshot} (h : SameOf o s t) (h' : SameOf o t u) : SameOf o s u := by
  cases o with
  | schema => exact Eq.trans h h'
  | enumType type => exact ⟨h.1.trans h'.1, h.2.trans h'.2⟩
  | table table =>
    exact ⟨h.1.trans h'.1, fun name => (h.2.1 name).trans (h'.2.1 name),
      fun name => (h.2.2 name).trans (h'.2.2 name)⟩

/-- Snapshots of one schema are the same when they are so as far as each object goes, with the same
indexes. -/
theorem same_of_sameOf (hschema : s.schema = t.schema) (hobjects : ∀ o, SameOf o s t)
    (hindexes : ∀ name, name ∈ s.indexes ↔ name ∈ t.indexes) : s.Same t where
  schema := hschema
  schemaExists := hobjects .schema
  labels type := (hobjects (.enumType type)).1
  typeComments type := (hobjects (.enumType type)).2
  columns table := (hobjects (.table table)).1
  indexes := hindexes
  constraints key := (hobjects (.table key.1)).2.1 key.2
  triggers key := (hobjects (.table key.1)).2.2 key.2

section Turns

attribute [local simp] advance Operation.apply Operation.pending objectOf SameOf Snapshot.labels?
  Snapshot.columns? Catalog.lookup_put Catalog.lookup_putNew Catalog.lookup_alter Catalog.mem_addMember

/-- The turn of an operation leaves every other object as it is. -/
theorem sameOf_advance (s : Snapshot) (h : objectOf op ≠ o) : SameOf o (advance op s) s := by
  unfold advance
  split
  · cases op with
    | createTable schema table columns comment =>
      cases hkey : (Sql.keyColumns columns).isEmpty <;> cases o <;> simp_all [Ne.symm]
    | _ => cases o <;> simp_all [Ne.symm]
  · cases o <;> simp

/-- An operation changes its own object alike in snapshots that are the same there. -/
theorem SameOf.apply (h : SameOf (objectOf op) s t) :
    SameOf (objectOf op) (op.apply s) (op.apply t) := by
  cases op with
  | createTable schema table columns comment =>
    cases hkey : (Sql.keyColumns columns).isEmpty <;> simp_all
  | _ => simp_all

/-- An operation creates an index. -/
def CreatesIndex : Operation → Prop
  | .createIndex .. => True
  | _ => False

/-- Whether an operation is pending depends on its own object, unless it creates an index. -/
theorem SameOf.pending (h : SameOf (objectOf op) s t) (hindex : ¬ CreatesIndex op) :
    op.pending s = op.pending t := by
  cases op with
  | createIndex schema table name columns unique method late => exact absurd trivial hindex
  | createUpdatedTrigger schema table =>
    rw [Bool.eq_iff_iff]
    simp_all [Snapshot.hasTrigger]
  | _ =>
    simp_all [Snapshot.typeComment?, Snapshot.hasTable, Snapshot.hasColumn, Snapshot.hasConstraint,
      Snapshot.constraintComment?]

/-- What the turn of an operation makes of its own object depends on that object alone. -/
theorem SameOf.advance (h : SameOf (objectOf op) s t) :
    SameOf (objectOf op) (advance op s) (advance op t) := by
  by_cases hindex : CreatesIndex op
  · -- the object stays as it is whether the index is there or not
    cases op with
    | createIndex schema table name columns unique method late =>
      unfold Plan.advance
      split <;> split <;> exact h
    | _ => exact absurd hindex id
  · unfold Plan.advance
    rw [h.pending hindex]
    split
    · exact h.apply
    · exact h

/-- The indexes that the turn of an operation adds: an index of its own, or that of the key of a new table. -/
def AddsIndex : Operation → Snapshot → String → Prop
  | .createIndex _ _ name _ _ _ _, _, added => added = name
  | .createTable _ table columns _, s, added => s.hasTable table = false ∧
      (Sql.keyColumns columns).isEmpty = false ∧ added = Naming.primaryKeyName table
  | _, _, _ => False

/-- The indexes after the turn of an operation. -/
theorem mem_indexes_advance {name : String} :
    name ∈ (Plan.advance op s).indexes ↔ name ∈ s.indexes ∨ AddsIndex op s name := by
  unfold Plan.advance
  cases op with
  | createIndex schema table index columns unique method late =>
    by_cases hindex : index ∈ s.indexes
    · simp_all [AddsIndex, Snapshot.hasIndex]
    · simp_all [AddsIndex, Snapshot.hasIndex, or_comm]
  | createTable schema table columns comment =>
    cases hkey : (Sql.keyColumns columns).isEmpty <;> cases htable : s.hasTable table <;>
      simp [AddsIndex, hkey, htable, or_comm]
  | _ => split <;> simp [AddsIndex]

/-- The indexes that the turn of an operation adds depend on its own object alone. -/
theorem SameOf.addsIndex_iff (h : SameOf (objectOf op) s t) (name : String) :
    AddsIndex op s name ↔ AddsIndex op t name := by
  cases op with
  | createTable schema table columns comment => simp_all [AddsIndex, Snapshot.hasTable]
  | _ => rfl

end Turns

/-- The turn of an operation keeps the schema that a snapshot is of. -/
theorem schema_advance (op : Operation) (s : Snapshot) : (advance op s).schema = s.schema := by
  unfold advance
  split
  · exact op.schema_apply s
  · rfl

/-- Two operations may have their turns in either order. -/
def Swaps (a b : Operation) : Prop :=
  ∀ s, (advance a (advance b s)).Same (advance b (advance a s))

/-- Operations about different objects may have their turns in either order. -/
theorem swaps_of_ne (h : objectOf a ≠ objectOf b) : Swaps a b := by
  intro s
  have hb : SameOf (objectOf a) (advance b s) s := sameOf_advance s h.symm
  have ha : SameOf (objectOf b) (advance a s) s := sameOf_advance s h
  refine same_of_sameOf (by simp only [schema_advance]) ?_ ?_
  · intro o
    by_cases hoa : objectOf a = o
    · subst hoa
      exact hb.advance.trans (sameOf_advance _ h.symm).symm
    · by_cases hob : objectOf b = o
      · subst hob
        exact (sameOf_advance _ h).trans ha.symm.advance
      · exact ((sameOf_advance _ hoa).trans (sameOf_advance _ hob)).trans
          ((sameOf_advance _ hob).trans (sameOf_advance _ hoa)).symm
  · intro name
    rw [mem_indexes_advance, mem_indexes_advance, mem_indexes_advance, mem_indexes_advance,
      hb.addsIndex_iff, ha.addsIndex_iff, or_right_comm]

/-! ## One table -/

/-- A foreign key that is there, and a deferred operation that is not pending, would change nothing. -/
theorem advance_eq_apply (h : IsKey op ∨ op.phase = .deferred) (s : Snapshot) :
    advance op s = op.apply s := by
  unfold advance
  split
  · rfl
  · next hpending =>
    cases op with
    | addForeignKey schema table constraint column refTable refColumn onDelete =>
      have hthere : Catalog.putNew (table, constraint) none s.constraints = s.constraints :=
        Catalog.putNew_eq_self_iff.mpr (by simpa [Operation.pending, Snapshot.hasConstraint] using hpending)
      simp only [Operation.apply, hthere]
    | commentOnConstraint schema table constraint comment =>
      have hthere : Catalog.put (table, constraint) (some comment) s.constraints = s.constraints := by
        refine Catalog.put_eq_self_iff.mpr ?_
        simpa [Operation.pending, Snapshot.constraintComment?, Option.join_eq_some_iff] using hpending
      simp only [Operation.apply, hthere]
    | createIndex schema table name columns unique method late =>
      have hthere : Catalog.addMember name s.indexes = s.indexes :=
        Catalog.addMember_eq_self_iff.mpr (by simpa [Operation.pending, Snapshot.hasIndex] using hpending)
      simp only [Operation.apply, hthere]
    | _ => rcases h with h | h <;> cases h

/-- Foreign keys may have their turns in either order. -/
theorem swaps_of_isKey (ha : IsKey a) (hb : IsKey b) : Swaps a b := by
  intro s
  simp only [advance_eq_apply (.inl ha), advance_eq_apply (.inl hb)]
  cases a with
  | addForeignKey schema table constraint column refTable refColumn onDelete =>
    cases b with
    | addForeignKey schema' table' constraint' column' refTable' refColumn' onDelete' =>
      refine { Snapshot.Same.refl _ with constraints := fun key => ?_ }
      simp only [Operation.apply, Catalog.lookup_putNew]
      by_cases hkey : key = (table, constraint)
      · by_cases hkey' : (table, constraint) = (table', constraint') <;> simp [hkey, hkey']
      · by_cases hkey' : key = (table', constraint')
        · have hne : ¬ (table', constraint') = (table, constraint) := fun heq => hkey (hkey'.trans heq)
          simp [hkey', hne]
        · simp [hkey, hkey']
    | _ => exact absurd hb id
  | _ => exact absurd ha id

/-- Deferred operations may have their turns in either order, if neither takes back what the other is for. -/
theorem swaps_of_deferred (ha : a.phase = .deferred) (hb : b.phase = .deferred)
    (hkept : ∀ f ∈ b.wants, ¬ a.Overwrites f) : Swaps a b := by
  intro s
  simp only [advance_eq_apply (.inr ha), advance_eq_apply (.inr hb)]
  cases a with
  | createIndex =>
    cases b with
    | createIndex =>
      refine { Snapshot.Same.refl _ with indexes := fun name => ?_ }
      simp only [Operation.apply, Catalog.mem_addMember, or_left_comm]
    | commentOnConstraint => exact .refl _
    | _ => cases hb
  | commentOnConstraint schema table constraint comment =>
    cases b with
    | createIndex => exact .refl _
    | commentOnConstraint schema' table' constraint' comment' =>
      refine { Snapshot.Same.refl _ with constraints := fun key => ?_ }
      have hcomment : (table, constraint) = (table', constraint') → comment = comment' := by
        intro heq
        obtain ⟨rfl, rfl⟩ := Prod.mk.inj heq
        by_contra hne
        exact hkept _ (List.mem_singleton_self _) ⟨⟨rfl, rfl⟩, Ne.symm hne⟩
      simp only [Operation.apply, Catalog.lookup_put]
      by_cases hkey : key = (table, constraint)
      · by_cases hkey' : (table, constraint) = (table', constraint')
        · simp [hkey, hkey', hcomment hkey']
        · simp [hkey, hkey']
      · simp [hkey]
    | _ => cases hb
  | _ => cases ha

/-! ## Any order -/

/-- The snapshot after the turns of operations. -/
def turns (ops : List Operation) (s : Snapshot) : Snapshot :=
  ops.foldl (fun s op => advance op s) s

/-- The turns of a second group come after those of the first. -/
theorem turns_append (xs ys : List Operation) (s : Snapshot) :
    turns (xs ++ ys) s = turns ys (turns xs s) :=
  List.foldl_append

/-- Where there is no conflict, the turns of operations carry out those that are taken. -/
theorem turns_of_settle {ops taken : List Operation} (h : settle ops s = ⟨taken, none⟩) :
    turns ops s = applyAll taken s := by
  induction ops generalizing s taken with
  | nil =>
    obtain rfl : [] = taken := (Progress.mk.inj h).1
    rfl
  | cons op rest ih =>
    obtain ⟨-, ⟨hpending, later, rfl, hlater⟩ | ⟨hpending, hskip⟩⟩ := settle_cons_eq h
    · have hturn : advance op s = op.apply s := if_pos hpending
      have hrest : turns (op :: rest) s = turns rest (advance op s) := rfl
      rw [hrest, hturn, ih hlater]
      rfl
    · have hturn : advance op s = s := if_neg (by simp [hpending])
      have hrest : turns (op :: rest) s = turns rest (advance op s) := rfl
      rw [hrest, hturn, ih hskip]

/-- Snapshots that are the same stay so over a turn. -/
theorem same_advance (h : s.Same t) (op : Operation) : (advance op s).Same (advance op t) := by
  unfold advance
  rw [h.pending op]
  split
  · exact h.apply op
  · exact h

/-- Snapshots that are the same stay so over turns. -/
theorem same_turns (h : s.Same t) (ops : List Operation) : (turns ops s).Same (turns ops t) := by
  induction ops generalizing s t with
  | nil => exact h
  | cons op rest ih => exact ih (same_advance h op)

/-- Groups of operations may have their turns in either order when each two of their operations may. -/
theorem turns_swap {xs ys : List Operation} (h : ∀ a ∈ xs, ∀ b ∈ ys, Swaps a b) (s : Snapshot) :
    (turns xs (turns ys s)).Same (turns ys (turns xs s)) := by
  have hone : ∀ a ∈ xs, ∀ s, (advance a (turns ys s)).Same (turns ys (advance a s)) := by
    intro a ha s
    have hys := h a ha
    clear h ha
    induction ys generalizing s with
    | nil => exact .refl _
    | cons b rest ih =>
      obtain ⟨hb, hrest⟩ := List.forall_mem_cons.mp hys
      exact (ih (advance b s) hrest).trans (same_turns (hb s) rest)
  clear h
  induction xs generalizing s with
  | nil => exact .refl _
  | cons a rest ih =>
    obtain ⟨ha, hrest⟩ := List.forall_mem_cons.mp hone
    exact (same_turns (ha s) rest).trans (ih (advance a s) hrest)

/-- Groups of operations that may change places pairwise may have their turns in any order. -/
theorem turns_flatMap_same {α : Type} {items items' : List α} {group : α → List Operation}
    (h : items.Perm items')
    (hswaps : ∀ x ∈ items, ∀ y ∈ items, x ≠ y → ∀ a ∈ group x, ∀ b ∈ group y, Swaps a b)
    (hsame : s.Same t) : (turns (items.flatMap group) s).Same (turns (items'.flatMap group) t) := by
  induction h generalizing s t with
  | nil => exact hsame
  | cons x h ih =>
    rw [List.flatMap_cons, List.flatMap_cons, turns_append, turns_append]
    exact ih (fun y hy z hz => hswaps y (List.mem_cons_of_mem _ hy) z (List.mem_cons_of_mem _ hz))
      (same_turns hsame (group x))
  | swap x y rest =>
    simp only [List.flatMap_cons, turns_append]
    refine same_turns ?_ (rest.flatMap group)
    by_cases hxy : x = y
    · subst hxy
      exact same_turns (same_turns hsame (group x)) (group x)
    · have hgroups := turns_swap (hswaps x (by simp) y (by simp) hxy) s
      exact hgroups.trans (same_turns (same_turns hsame (group x)) (group y))
  | trans h h' ih ih' =>
    refine (ih hswaps (.refl s)).trans (ih' (fun x hx y hy => ?_) hsame)
    exact hswaps x (h.mem_iff.mpr hx) y (h.mem_iff.mpr hy)

end SchemaReconcile.Plan
