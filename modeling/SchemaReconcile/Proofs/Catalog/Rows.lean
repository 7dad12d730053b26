import SchemaReconcile.Catalog.Rows
import SchemaReconcile.Proofs.Catalog.Entries

/-!
# Snapshots from rows

Two snapshots are the same when every lookup finds the same in both (`Snapshot.Same`): their entries may stand
in another order.  Rows tell a snapshot when, for each key, the rows of this key are those that a query about
the snapshot returns (`Rows.Tells`); the rows of different keys may be mixed, but those of one enum type or of
one table keep the order of its labels or columns.

A snapshot is read row by row.  What the finished entries hold for a key depends on the rows of this key alone
(`lookup_foldl_alter`, `lookup_ofPairs`, `mem_ofMembers`), so the snapshot that is read from rows is the one
that they tell (`same_toSnapshot`).
-/

namespace SchemaReconcile.Catalog

/-! ## The rows of a key -/

section Keys

variable {κ α β : Type} [BEq κ]

/-- The values in the rows of a key, in their order. -/
def rowsOf (key : κ) (rows : List (κ × α)) : List α :=
  (rows.filter fun row => row.1 == key).map (·.2)

/-- A first row counts for its own key. -/
theorem rowsOf_cons (key k : κ) (a : α) (rest : List (κ × α)) :
    rowsOf key ((k, a) :: rest) = if k == key then a :: rowsOf key rest else rowsOf key rest := by
  unfold rowsOf
  cases hk : k == key <;> simp [hk]

variable [LawfulBEq κ]

/-- Rows that are added to the list of their key one by one are behind each other there. -/
theorem lookup_foldl_alter (add : α → List β) (key : κ) (rows : List (κ × α))
    (entries : List (κ × List β)) :
    (rows.foldl (fun es row => alter row.1 [] (· ++ add row.2) es) entries).lookup key =
      if rowsOf key rows = [] then entries.lookup key
      else some ((entries.lookup key).getD [] ++ (rowsOf key rows).flatMap add) := by
  induction rows generalizing entries with
  | nil => rfl
  | cons row rest ih =>
    obtain ⟨k, a⟩ := row
    rw [List.foldl_cons, ih, lookup_alter, rowsOf_cons]
    by_cases hk : k = key
    · subst hk
      by_cases hrest : rowsOf k rest = []
      · simp [hrest]
      · simp [hrest]
    · have hne : ¬ key = k := fun h => hk h.symm
      simp [hk, hne]

/-- Of the rows of a key, the last counts. -/
theorem lookup_foldl_put (key : κ) (rows : List (κ × α)) (entries : List (κ × α)) :
    (rows.foldl (fun es row => put row.1 row.2 es) entries).lookup key =
      ((rowsOf key rows).getLast?).or (entries.lookup key) := by
  induction rows generalizing entries with
  | nil => rfl
  | cons row rest ih =>
    obtain ⟨k, a⟩ := row
    rw [List.foldl_cons, ih, lookup_put, rowsOf_cons]
    by_cases hk : k = key
    · subst hk
      cases hrest : (rowsOf k rest).getLast? <;> simp [List.getLast?_cons, hrest]
    · have hne : ¬ key = k := fun h => hk h.symm
      simp [hk, hne]

/-- A set holds what it is made from. -/
theorem mem_ofMembers {a : κ} {members : List κ} : a ∈ ofMembers members ↔ a ∈ members := by
  have hfold : ∀ set : List κ, a ∈ members.foldl (fun set b => addMember b set) set ↔
      a ∈ set ∨ a ∈ members := by
    induction members with
    | nil => simp
    | cons b rest ih =>
      intro set
      rw [List.foldl_cons, ih, mem_addMember, List.mem_cons]
      tauto
  simpa [ofMembers] using hfold []

/-- The rows of a key, where each entry has its rows behind each other. -/
theorem rowsOf_flatMap (rows : α → List β) {entries : List (κ × α)} (h : (entries.map (·.1)).Nodup)
    (key : κ) :
    rowsOf key (entries.flatMap fun e => (rows e.2).map fun b => (e.1, b)) =
      ((entries.lookup key).map rows).getD [] := by
  have hown : ∀ (k : κ) (bs : List β) more, rowsOf key (bs.map (fun b => (k, b)) ++ more) =
      (if k == key then bs else []) ++ rowsOf key more := by
    intro k bs more
    induction bs with
    | nil => simp
    | cons b bs ih =>
      rw [List.map_cons, List.cons_append, rowsOf_cons, ih]
      cases k == key <;> simp
  induction entries with
  | nil => rfl
  | cons e rest ih =>
    obtain ⟨k, a⟩ := e
    obtain ⟨hk, hrest⟩ := List.nodup_cons.mp h
    rw [List.flatMap_cons, hown, ih hrest, lookup_entry]
    by_cases hkey : k = key
    · subst hkey
      have hnone : rest.lookup k = none := by
        rw [List.lookup_eq_none_iff]
        intro p hp
        rw [bne_iff_ne]
        rintro rfl
        exact hk (List.mem_map.mpr ⟨p, hp, rfl⟩)
      simp [hnone]
    · have hne : ¬ key = k := fun h => hkey h.symm
      simp [hkey, hne]

end Keys

/-! ## Snapshots -/

/-- Two snapshots are the same, whatever the order of their entries. -/
structure Snapshot.Same (s t : Snapshot) : Prop where
  schema : s.schema = t.schema
  schemaExists : s.schemaExists = t.schemaExists
  labels : ∀ type, s.labels? type = t.labels? type
  typeComments : ∀ type, s.typeComments.lookup type = t.typeComments.lookup type
  columns : ∀ table, s.columns? table = t.columns? table
  indexes : ∀ name, name ∈ s.indexes ↔ name ∈ t.indexes
  constraints : ∀ key, s.constraints.lookup key = t.constraints.lookup key
  triggers : ∀ key, key ∈ s.triggers ↔ key ∈ t.triggers

/-- A snapshot is the same as itself. -/
theorem Snapshot.Same.refl (s : Snapshot) : s.Same s :=
  ⟨rfl, rfl, fun _ => rfl, fun _ => rfl, fun _ => rfl, fun _ => .rfl, fun _ => rfl, fun _ => .rfl⟩

/-- The rows about a table with columns: one for each column, or a single one for a table without. -/
def columnRows : List String → List (Option String)
  | [] => [none]
  | columns => columns.map some

/-- Rows tell a snapshot: for each key they are those that a query about the snapshot returns. -/
structure Rows.Tells (r : Rows) (s : Snapshot) : Prop where
  schemas : r.schemaExists = s.schemaExists
  enumLabels : ∀ type, rowsOf type r.enumLabels = (s.labels? type).getD []
  typeComments : ∀ type, rowsOf type r.typeComments = (s.typeComments.lookup type).toList
  tableColumns : ∀ table, rowsOf table r.tableColumns = ((s.columns? table).map columnRows).getD []
  indexes : ∀ name, name ∈ r.indexes ↔ name ∈ s.indexes
  constraints : ∀ key, rowsOf key r.constraints = (s.constraints.lookup key).toList
  triggers : ∀ key, key ∈ r.triggers ↔ key ∈ s.triggers

/-- The rows about a snapshot. -/
def Snapshot.rows (s : Snapshot) : Rows where
  schemas := if s.schemaExists then 1 else 0
  enumLabels := s.enums.flatMap fun e => e.2.map fun label => (e.1, label)
  typeComments := s.typeComments
  tableColumns := s.tables.flatMap fun e => (columnRows e.2).map fun column => (e.1, column)
  indexes := s.indexes
  constraints := s.constraints
  triggers := s.triggers

/-- The entries of a snapshot have different keys. -/
structure Snapshot.Keyed (s : Snapshot) : Prop where
  enums : (s.enums.map (·.1)).Nodup
  typeComments : (s.typeComments.map (·.1)).Nodup
  tables : (s.tables.map (·.1)).Nodup
  constraints : (s.constraints.map (·.1)).Nodup

/-- The rows of a key among entries with different keys. -/
theorem rowsOf_entries {κ α : Type} [BEq κ] [LawfulBEq κ] {entries : List (κ × α)}
    (h : (entries.map (·.1)).Nodup) (key : κ) : rowsOf key entries = (entries.lookup key).toList := by
  have hone := rowsOf_flatMap (fun a : α => [a]) h key
  simp only [List.map_singleton, List.flatMap_singleton'] at hone
  rw [hone]
  cases entries.lookup key <;> rfl

/-- A snapshot is told by the rows about it. -/
theorem Snapshot.Keyed.tells {s : Snapshot} (h : s.Keyed) : s.rows.Tells s where
  schemas := by
    unfold Snapshot.rows Rows.schemaExists
    cases s.schemaExists <;> rfl
  enumLabels type := (rowsOf_flatMap id h.enums type).trans (by rw [Option.map_id]; rfl)
  typeComments := rowsOf_entries h.typeComments
  tableColumns := rowsOf_flatMap columnRows h.tables
  indexes _ := .rfl
  constraints := rowsOf_entries h.constraints
  triggers _ := .rfl

/-- Enum types have labels when each entry does. -/
theorem Snapshot.labels?_ne_nil {s : Snapshot} (h : ∀ e ∈ s.enums, e.2 ≠ []) (type : String) :
    s.labels? type ≠ some [] := by
  intro hnil
  obtain ⟨before, after, henums, -⟩ := List.lookup_eq_some_iff.mp hnil
  exact h (type, []) (henums ▸ by simp) rfl

section Reading

variable {r : Rows} {s : Snapshot}

/-- The labels of enum types that rows tell. -/
theorem lookup_enums (h : r.Tells s) (hlabels : ∀ type, s.labels? type ≠ some []) (type : String) :
    r.enums.lookup type = s.labels? type := by
  have hread := lookup_foldl_alter (fun label => [label]) type r.enumLabels []
  rw [h.enumLabels] at hread
  refine hread.trans ?_
  cases hfound : s.labels? type with
  | none => rfl
  | some labels =>
    have hne : labels ≠ [] := fun heq => hlabels type (heq ▸ hfound)
    simp [hne]

/-- The columns of tables that rows tell. -/
theorem lookup_tables (h : r.Tells s) (table : String) : r.tables.lookup table = s.columns? table := by
  have hread := lookup_foldl_alter Option.toList table r.tableColumns []
  rw [h.tableColumns] at hread
  refine hread.trans ?_
  cases s.columns? table with
  | none => rfl
  | some columns =>
    cases columns with
    | nil => rfl
    | cons column rest => simp [columnRows, List.flatMap_map]

/-- The values of entries that rows tell, one for each key at most. -/
theorem lookup_ofPairs {κ α : Type} [BEq κ] [LawfulBEq κ] {rows entries : List (κ × α)} {key : κ}
    (h : rowsOf key rows = (entries.lookup key).toList) :
    (ofPairs rows).lookup key = entries.lookup key := by
  have hread := lookup_foldl_put key rows []
  rw [h] at hread
  refine hread.trans ?_
  cases entries.lookup key <;> rfl

/-- Rows are read as the snapshot that they tell.  A schema that does not exist has no entries, and each enum
type has a label. -/
theorem same_toSnapshot (h : r.Tells s) (hempty : s.schemaExists = false → s = .empty s.schema)
    (hlabels : ∀ type, s.labels? type ≠ some []) : (r.toSnapshot s.schema).Same s := by
  unfold Rows.toSnapshot
  rw [h.schemas]
  cases hexists : s.schemaExists with
  | false =>
    rw [if_neg Bool.false_ne_true]
    exact (hempty hexists).symm ▸ .refl _
  | true =>
    rw [if_pos rfl]
    exact {
      schema := rfl
      schemaExists := hexists.symm
      labels := lookup_enums h hlabels
      typeComments := fun type => lookup_ofPairs (h.typeComments type)
      columns := lookup_tables h
      indexes := fun name => mem_ofMembers.trans (h.indexes name)
      constraints := fun key => lookup_ofPairs (h.constraints key)
      triggers := fun key => mem_ofMembers.trans (h.triggers key) }

end Reading

end SchemaReconcile.Catalog
