import SchemaReconcile.Catalog.Operation
import SchemaReconcile.Proofs.Catalog.Entries

/-!
# Facts of a snapshot

A snapshot is read as a set of facts: the schema exists, an enum type has certain labels, a table has a
column, and so on.  An operation is described by facts: those that it is for (`wants`), those that it makes
true (`effects`), and those that it takes back (`Overwrites`).

`shows_apply` says that these tell all: after an operation that was pending, a fact is shown exactly
when the operation makes it true, or when it was shown before and is not taken back.  Every statement about
runs of operations is derived from this one and from `pending_iff`.
-/

namespace SchemaReconcile.Catalog

/-- Something that a snapshot may show. -/
inductive Fact where
  | schema
  | enumType (type : String)
  | labels (type : String) (labels : List String)
  | typeComment (type comment : String)
  | table (table : String)
  | column (table column : String)
  | index (name : String)
  | constraint (table name : String)
  | constraintComment (table name comment : String)
  | trigger (table name : String)
  deriving DecidableEq, Repr

/-- A snapshot shows a fact. -/
def Snapshot.Shows (s : Snapshot) : Fact → Prop
  | .schema => s.schemaExists = true
  | .enumType type => (s.labels? type).isSome = true
  | .labels type labels => s.labels? type = some labels
  | .typeComment type comment => s.typeComment? type = some comment
  | .table table => s.hasTable table = true
  | .column table column => s.hasColumn table column = true
  | .index name => s.hasIndex name = true
  | .constraint table name => s.hasConstraint table name = true
  | .constraintComment table name comment => s.constraintComment? table name = some comment
  | .trigger table name => s.hasTrigger table name = true

/-- No operation takes such a fact back. -/
def Fact.Lasting : Fact → Prop
  | labels .. => False
  | typeComment .. => False
  | constraintComment .. => False
  | _ => True

namespace Operation

/-- The facts that an operation is for.  The first of them decides whether it is pending. -/
def wants : Operation → List Fact
  | createSchema _ => [.schema]
  | createEnumType _ type labels _ => [.enumType type, .labels type labels]
  | commentOnType _ type comment => [.typeComment type comment]
  | createTable _ table _ _ => [.table table]
  | addColumn _ table column => [.column table column.name]
  | createIndex _ _ name _ _ _ _ => [.index name]
  | addForeignKey _ table constraint _ _ _ _ => [.constraint table constraint]
  | commentOnConstraint _ table constraint comment =>
    [.constraintComment table constraint comment]
  | createUpdatedTrigger _ table => [.trigger table (Naming.triggerName table)]
  | blank => []

/-- The key that comes with a table. -/
def keyEffects (table : String) (columns : List Sql.Column) : List Fact :=
  if (Sql.keyColumns columns).isEmpty then []
  else [.constraint table (Naming.primaryKeyName table), .index (Naming.primaryKeyName table)]

/-- The facts that an operation makes true. -/
def effects : Operation → List Fact
  | createTable _ table columns _ =>
    .table table :: columns.map (fun c => .column table c.name) ++ keyEffects table columns
  | addColumn _ table column => [.table table, .column table column.name]
  | commentOnConstraint _ table constraint comment =>
    [.constraint table constraint, .constraintComment table constraint comment]
  | op => op.wants

/-- An operation takes a fact back: it gives the same type or constraint another text. -/
def Overwrites : Operation → Fact → Prop
  | createEnumType _ type labels _, .labels t l => t = type ∧ l ≠ labels
  | commentOnType _ type comment, .typeComment t c => t = type ∧ c ≠ comment
  | commentOnConstraint _ table constraint comment, .constraintComment t n c =>
    (t = table ∧ n = constraint) ∧ c ≠ comment
  | _, _ => False

/-- A lasting fact is never taken back. -/
theorem not_overwrites_of_lasting {op : Operation} {f : Fact} (h : f.Lasting) :
    ¬ op.Overwrites f := by
  cases op <;> cases f <;> simp_all [Overwrites, Fact.Lasting]

/-- An operation is pending when the first fact that it is for is not shown. -/
theorem pending_iff {op : Operation} {s : Snapshot} :
    op.pending s = true ↔ ∀ f ∈ op.wants.head?, ¬ s.Shows f := by
  cases op <;> simp [pending, wants, Snapshot.Shows]

/-! ## What an operation changes -/

section Apply

attribute [local simp] apply Snapshot.Shows wants effects Overwrites Snapshot.labels?
  Snapshot.typeComment? Snapshot.columns? Snapshot.hasTable Snapshot.hasColumn Snapshot.hasIndex
  Snapshot.hasConstraint Snapshot.constraintComment? Snapshot.hasTrigger lookup_put lookup_putNew
  lookup_alter mem_addMember

variable {s : Snapshot} (f : Fact)

/-- What an enum type with its labels changes. -/
theorem shows_createEnumType (schema type : String) (labels : List String) (enumeration : String) :
    ((createEnumType schema type labels enumeration).apply s).Shows f ↔
      (s.Shows f ∧ ¬ (createEnumType schema type labels enumeration).Overwrites f) ∨
        f ∈ (createEnumType schema type labels enumeration).effects := by
  cases f with
  | enumType t => by_cases ht : t = type <;> simp [ht]
  | labels t l =>
    by_cases ht : t = type
    · by_cases hl : l = labels
      · simp [ht, hl]
      · simp [ht, hl, Ne.symm hl]
    · simp [ht]
  | _ => simp

/-- What a comment on an enum type changes. -/
theorem shows_commentOnType (schema type comment : String) :
    ((commentOnType schema type comment).apply s).Shows f ↔
      (s.Shows f ∧ ¬ (commentOnType schema type comment).Overwrites f) ∨
        f ∈ (commentOnType schema type comment).effects := by
  cases f with
  | typeComment t c =>
    by_cases ht : t = type
    · by_cases hc : c = comment
      · simp [ht, hc]
      · simp [ht, hc, Ne.symm hc]
    · simp [ht]
  | _ => simp

/-- The key columns decide whether a table comes with a key. -/
theorem mem_keyEffects {table : String} {columns : List Sql.Column} :
    f ∈ keyEffects table columns ↔ (Sql.keyColumns columns).isEmpty = false ∧
      (f = .constraint table (Naming.primaryKeyName table) ∨
        f = .index (Naming.primaryKeyName table)) := by
  unfold keyEffects
  cases (Sql.keyColumns columns).isEmpty <;> simp

/-- What a table that was not there changes. -/
theorem shows_createTable {schema table : String} {columns : List Sql.Column}
    {comment : Option String} (h : s.hasTable table = false) :
    ((createTable schema table columns comment).apply s).Shows f ↔
      (s.Shows f ∧ ¬ (createTable schema table columns comment).Overwrites f) ∨
        f ∈ (createTable schema table columns comment).effects := by
  have hnone : s.tables.lookup table = none := by simpa using h
  cases f with
  | table t =>
    by_cases ht : t = table
    · cases hk : (Sql.keyColumns columns).isEmpty <;> simp [mem_keyEffects, hk, ht]
    · cases hk : (Sql.keyColumns columns).isEmpty <;> simp [mem_keyEffects, hk, ht]
  | column t c =>
    by_cases ht : t = table
    · cases hk : (Sql.keyColumns columns).isEmpty <;> simp [mem_keyEffects, hk, ht, hnone]
    · cases hk : (Sql.keyColumns columns).isEmpty <;> simp [mem_keyEffects, hk, ht, Ne.symm ht]
  | index n =>
    cases hk : (Sql.keyColumns columns).isEmpty <;> simp [mem_keyEffects, hk, or_comm]
  | constraint t n =>
    -- the key of the table is a constraint that may have been there without the table
    by_cases htn : t = table ∧ n = Naming.primaryKeyName table
    · cases hk : (Sql.keyColumns columns).isEmpty <;> simp [mem_keyEffects, hk, htn]
    · cases hk : (Sql.keyColumns columns).isEmpty <;> simp [mem_keyEffects, hk, htn]
  | constraintComment t n c =>
    by_cases htn : t = table ∧ n = Naming.primaryKeyName table
    · obtain ⟨rfl, rfl⟩ := htn
      cases hk : (Sql.keyColumns columns).isEmpty <;>
        cases hl : s.constraints.lookup (t, Naming.primaryKeyName t) <;>
          simp [mem_keyEffects, hk, hl]
    · cases hk : (Sql.keyColumns columns).isEmpty <;> simp [mem_keyEffects, hk, htn]
  | _ => cases hk : (Sql.keyColumns columns).isEmpty <;> simp [mem_keyEffects, hk]

/-- What a column changes. -/
theorem shows_addColumn (schema table : String) (column : Sql.Column) :
    ((addColumn schema table column).apply s).Shows f ↔
      (s.Shows f ∧ ¬ (addColumn schema table column).Overwrites f) ∨
        f ∈ (addColumn schema table column).effects := by
  cases f with
  | table t => by_cases ht : t = table <;> simp [ht]
  | column t c => by_cases ht : t = table <;> simp [ht]
  | _ => simp

/-- What a foreign key changes. -/
theorem shows_addForeignKey (schema table constraint column refTable refColumn onDelete : String) :
    ((addForeignKey schema table constraint column refTable refColumn onDelete).apply s).Shows f ↔
      (s.Shows f ∧ ¬ (addForeignKey schema table constraint column refTable refColumn
          onDelete).Overwrites f) ∨
        f ∈ (addForeignKey schema table constraint column refTable refColumn onDelete).effects := by
  cases f with
  | constraint t n => by_cases htn : t = table ∧ n = constraint <;> simp [htn]
  | constraintComment t n c =>
    by_cases htn : t = table ∧ n = constraint
    · obtain ⟨rfl, rfl⟩ := htn
      cases hl : s.constraints.lookup (t, n) <;> simp [hl]
    · simp [htn]
  | _ => simp

/-- What a comment on a constraint changes. -/
theorem shows_commentOnConstraint (schema table constraint comment : String) :
    ((commentOnConstraint schema table constraint comment).apply s).Shows f ↔
      (s.Shows f ∧ ¬ (commentOnConstraint schema table constraint comment).Overwrites f) ∨
        f ∈ (commentOnConstraint schema table constraint comment).effects := by
  cases f with
  | constraint t n => by_cases htn : t = table ∧ n = constraint <;> simp [htn]
  | constraintComment t n c =>
    by_cases htn : t = table ∧ n = constraint
    · by_cases hc : c = comment
      · simp [htn, hc]
      · simp [htn, hc, Ne.symm hc]
    · simp [htn]
      exact fun ht hn => absurd ⟨ht, hn⟩ htn
  | _ => simp

/-- After a pending operation a fact is shown when the operation makes it true, or when it was shown
before and is not taken back. -/
theorem shows_apply {op : Operation} (h : op.pending s = true) :
    (op.apply s).Shows f ↔ (s.Shows f ∧ ¬ op.Overwrites f) ∨ f ∈ op.effects := by
  cases op with
  | createSchema schema => cases f <;> simp
  | createEnumType schema type labels enumeration => exact shows_createEnumType f ..
  | commentOnType schema type comment => exact shows_commentOnType f ..
  | createTable schema table columns comment =>
    exact shows_createTable f (by simpa [pending] using h)
  | addColumn schema table column => exact shows_addColumn f ..
  | createIndex schema table name columns unique method late => cases f <;> simp [or_comm]
  | addForeignKey schema table constraint column refTable refColumn onDelete =>
    exact shows_addForeignKey f ..
  | commentOnConstraint schema table constraint comment => exact shows_commentOnConstraint f ..
  | createUpdatedTrigger schema table => cases f <;> simp [or_comm]
  | blank => cases f <;> simp

/-- A fact that is shown stays so, unless an operation takes it back or creates the table that it is about. -/
theorem shows_apply_of_kept {b : Operation} {f : Fact} (hf : s.Shows f) (hkept : ¬ b.Overwrites f)
    (htable : ∀ table column, f ≠ .column table column) : (b.apply s).Shows f := by
  cases b with
  | createSchema => cases f <;> simp_all
  | createEnumType => exact (shows_createEnumType f ..).mpr (.inl ⟨hf, hkept⟩)
  | commentOnType => exact (shows_commentOnType f ..).mpr (.inl ⟨hf, hkept⟩)
  | createTable schema table columns comment =>
    cases f with
    | column t c => exact absurd rfl (htable t c)
    | table t =>
      by_cases ht : t = table
      · cases hkey : (Sql.keyColumns columns).isEmpty <;> simp [hkey, ht]
      · cases hkey : (Sql.keyColumns columns).isEmpty <;> simpa [hkey, ht] using hf
    | index n =>
      have hmem : n ∈ s.indexes := by simpa using hf
      cases hkey : (Sql.keyColumns columns).isEmpty <;> simp [hkey, hmem]
    | constraint t n =>
      by_cases htn : t = table ∧ n = Naming.primaryKeyName table
      · cases hkey : (Sql.keyColumns columns).isEmpty
        · simp [hkey, htn]
        · simpa [hkey, htn] using hf
      · cases hkey : (Sql.keyColumns columns).isEmpty <;> simpa [hkey, htn] using hf
    | constraintComment t n c =>
      have hcomment : s.constraints.lookup (t, n) = some (some c) := by simpa [Option.join_eq_some_iff] using hf
      by_cases htn : t = table ∧ n = Naming.primaryKeyName table
      · obtain ⟨rfl, rfl⟩ := htn
        cases hkey : (Sql.keyColumns columns).isEmpty <;> simp [hkey, hcomment]
      · cases hkey : (Sql.keyColumns columns).isEmpty <;> simp [hkey, htn, hcomment]
    | _ => cases hkey : (Sql.keyColumns columns).isEmpty <;> simpa [hkey] using hf
  | addColumn => exact (shows_addColumn f ..).mpr (.inl ⟨hf, hkept⟩)
  | createIndex => cases f <;> simp_all
  | addForeignKey => exact (shows_addForeignKey f ..).mpr (.inl ⟨hf, hkept⟩)
  | commentOnConstraint => exact (shows_commentOnConstraint f ..).mpr (.inl ⟨hf, hkept⟩)
  | createUpdatedTrigger => cases f <;> simp_all
  | blank => exact hf

end Apply

/-- An operation keeps the schema that a snapshot is of. -/
theorem schema_apply (op : Operation) (s : Snapshot) : (op.apply s).schema = s.schema := by
  cases op with
  | createTable =>
    simp only [apply]
    split <;> rfl
  | _ => rfl

end Operation

end SchemaReconcile.Catalog
