import SchemaReconcile.Proofs.Extract.Storage
import SchemaReconcile.Proofs.Results
import SchemaReconcile.Sql.Definition

/-!
# Definition statements that succeed

Two statements may be refused: that of an index with an access method that is no safe identifier, and that
of a foreign key with another action on deletion than those there are.  When they are not, they are lists of
pieces with one part that varies.
-/

namespace SchemaReconcile.Sql

/-- The part of the statement of an index that names its access method. -/
def methodClause : Option String → Statement
  | none => []
  | some m => if m.isEmpty then [] else [.fixed " USING ", .fixed m]

/-- The statement of an index. -/
theorem createIndex_ok {schema table : String} {columns : List String} {name : String} {unique : Bool}
    {method : Option String} {s : Statement}
    (h : createIndex schema table columns name unique method = .ok s) :
    s = .fixed ("CREATE " ++ (if unique then "UNIQUE " else "") ++ "INDEX IF NOT EXISTS ") ::
      .identifier name :: .fixed " ON " :: qualified schema table ++ methodClause method ++
        .fixed " (" :: identifiers ", " columns ++ [.fixed ")"] := by
  unfold createIndex at h
  cases method with
  | none => exact (Except.ok.inj h).symm
  | some m =>
    dsimp only at h
    rw [methodClause]
    split at h
    · next hempty =>
      rw [if_pos hempty]
      exact (Except.ok.inj h).symm
    · next hempty =>
      obtain ⟨_, hsafe, hrest⟩ := bind_eq_ok.mp h
      obtain ⟨-, rfl⟩ := Naming.safe_eq_ok.mp hsafe
      rw [if_neg hempty]
      exact (Except.ok.inj hrest).symm

/-- The statement of a foreign key. -/
theorem addForeignKey_eq_some {schema table constraint column refTable refColumn onDelete : String}
    {s : Statement}
    (h : addForeignKey? schema table constraint column refTable refColumn onDelete = some s) :
    onDelete ∈ deleteActions ∧
      s = .fixed "ALTER TABLE " :: qualified schema table ++ .fixed " ADD CONSTRAINT " ::
        .identifier constraint :: .fixed " FOREIGN KEY (" :: .identifier column ::
        .fixed ") REFERENCES " :: qualified schema refTable ++ .fixed " (" :: .identifier refColumn ::
        .fixed ") ON DELETE " :: .fixed onDelete :: [.fixed " ON UPDATE CASCADE"] := by
  unfold addForeignKey? at h
  split at h
  · next haction => exact ⟨by simpa using haction, (Option.some.inj h).symm⟩
  · cases h

end SchemaReconcile.Sql
