import SchemaReconcile.Proofs.Catalog.Session
import SchemaReconcile.Proofs.Sql.Definition

/-!
# Statements that create a type

Whether a statement creates a certain enum type can be read off how its text begins (`CreatesType`).  The
names there are quoted, and quoting keeps different names apart whatever characters they have: a quote inside
a name stands twice, so the first single one ends it (`doubled_append_inj`).  A text creates one type at most
(`createsType_inj`), and only the operation for this type has a statement with such a text
(`createsType_iff`): the statements of all others begin with other words.
-/

namespace SchemaReconcile.Sql

/-- The beginning of a statement that creates an enum type of a schema. -/
def typeOpening (schema type : String) : Statement :=
  .fixed "CREATE TYPE " :: qualified schema type ++ [.fixed " AS ENUM ("]

/-- A text begins as the statement that creates an enum type of a schema. -/
def CreatesType (schema type sql : String) : Prop :=
  ∃ rest, sql = String.join ((typeOpening schema type).map Piece.render) ++ rest

/-- The first single quote behind a name ends it, so different names are kept apart. -/
theorem doubled_append_inj {q : Char} {a b xs ys : List Char} (hxs : xs.head? ≠ some q) (hys : ys.head? ≠ some q)
    (h : doubled q a ++ q :: xs = doubled q b ++ q :: ys) : a = b ∧ xs = ys := by
  -- a name that goes on where the other has ended has two quotes there
  have hended : ∀ {c : Char} {cs xs ys : List Char}, xs.head? ≠ some q →
      q :: xs ≠ doubled q (c :: cs) ++ q :: ys := by
    intro c cs xs ys hxs h
    rw [doubled] at h
    split at h
    · next hc =>
      rw [List.cons_append, List.cons_append, List.cons.injEq] at h
      rw [h.2, hc] at hxs
      exact hxs rfl
    · next hc =>
      rw [List.cons_append, List.cons.injEq] at h
      exact hc h.1.symm
  induction a generalizing b with
  | nil =>
    cases b with
    | nil => exact ⟨rfl, (List.cons.inj h).2⟩
    | cons d ds => exact absurd h (hended hxs)
  | cons c cs ih =>
    cases b with
    | nil => exact absurd h.symm (hended hys)
    | cons d ds =>
      obtain ⟨rfl, hrest⟩ : c = d ∧ doubled q cs ++ q :: xs = doubled q ds ++ q :: ys := by
        rw [doubled, doubled] at h
        split at h <;> split at h <;> simp_all
      obtain ⟨rfl, hsame⟩ := ih hrest
      exact ⟨rfl, hsame⟩

/-- A quoted name in front of a text, character by character. -/
theorem toList_quoteIdentifier_append (name text : String) :
    (quoteIdentifier name ++ text).toList = '"' :: (doubled '"' name.toList ++ '"' :: text.toList) := by
  simp [quoteIdentifier]

/-- Quoted names are kept apart by what follows them, unless this is a quote. -/
theorem quoteIdentifier_append_inj {a b x y : String} (hx : x.toList.head? ≠ some '"')
    (hy : y.toList.head? ≠ some '"') (h : quoteIdentifier a ++ x = quoteIdentifier b ++ y) : a = b ∧ x = y := by
  have hlists := congrArg String.toList h
  rw [toList_quoteIdentifier_append, toList_quoteIdentifier_append] at hlists
  obtain ⟨hname, hrest⟩ := doubled_append_inj hx hy (List.cons.inj hlists).2
  exact ⟨String.toList_inj.mp hname, String.toList_inj.mp hrest⟩

/-- The text of the beginning, name by name. -/
theorem join_typeOpening (schema type : String) :
    String.join ((typeOpening schema type).map Piece.render) =
      "CREATE TYPE " ++ (quoteIdentifier schema ++ ("." ++ (quoteIdentifier type ++ " AS ENUM ("))) := by
  simp [typeOpening, qualified, Piece.render, String.join, String.append_assoc]

/-- A text creates one type at most. -/
theorem createsType_inj {schema type schema' type' sql : String} (h : CreatesType schema type sql)
    (h' : CreatesType schema' type' sql) : schema = schema' ∧ type = type' := by
  obtain ⟨rest, hsql⟩ := h
  obtain ⟨rest', rfl⟩ := h'
  simp only [join_typeOpening, String.append_assoc, String.append_right_inj] at hsql
  obtain ⟨hschema, htype⟩ := quoteIdentifier_append_inj (by simp) (by simp) hsql
  rw [String.append_right_inj] at htype
  obtain ⟨htype, -⟩ := quoteIdentifier_append_inj (by simp) (by simp) htype
  exact ⟨hschema.symm, htype.symm⟩

/-- A statement begins with words other than those that create a type. -/
def opensOtherwise : Statement → Bool
  | .fixed text :: _ =>
    "CREATE TYPE ".toList.length ≤ text.toList.length && !"CREATE TYPE ".toList.isPrefixOf text.toList
  | _ => false

/-- A statement that begins with other words creates no type. -/
theorem not_createsType {s : Statement} (h : opensOtherwise s = true) {schema type : String} :
    ¬ CreatesType schema type (String.join (s.map Piece.render)) := by
  rintro ⟨rest, hsql⟩
  unfold opensOtherwise at h
  split at h
  · next text pieces =>
    obtain ⟨hlength, hother⟩ := Bool.and_eq_true_iff.mp h
    rw [join_typeOpening, String.append_assoc] at hsql
    have hlists := congrArg String.toList hsql
    simp only [List.map_cons, Piece.render, String.join_cons, String.toList_append] at hlists
    have hprefix : "CREATE TYPE ".toList <+: text.toList :=
      List.prefix_of_prefix_length_le ⟨_, rfl⟩ ⟨_, hlists⟩ (of_decide_eq_true hlength)
    rw [Bool.not_eq_true', ← Bool.not_eq_true, List.isPrefixOf_iff_prefix] at hother
    exact hother hprefix
  · cases h

end SchemaReconcile.Sql

namespace SchemaReconcile.Catalog

open Sql (CreatesType opensOtherwise)

/-- The statements of an operation begin with other words, unless it creates a type. -/
theorem Operation.opensOtherwise_of_mem {op : Operation} {statements : List Sql.Statement}
    (hother : ∀ schema type labels enumeration, op ≠ .createEnumType schema type labels enumeration)
    (hstatements : op.statements = .ok statements) :
    ∀ s ∈ statements, opensOtherwise s = true := by
  have hcomments : ∀ {comment : Option String} {statement : String → Sql.Statement},
      (∀ c, opensOtherwise (statement c) = true) → ∀ s ∈ comments comment statement, opensOtherwise s = true := by
    intro comment statement h s hs
    unfold comments at hs
    split at hs
    · cases hs
    · split at hs
      · cases hs
      · rw [List.mem_singleton.mp hs]
        exact h _
  cases op with
  | createEnumType => exact absurd rfl (hother _ _ _ _)
  | createTable schema table columns comment =>
    cases hstatements
    simp only [List.cons_append, List.forall_mem_cons, List.forall_mem_append, List.mem_flatMap,
      forall_exists_index, and_imp]
    refine ⟨rfl, hcomments fun _ => rfl, fun s c hc hs => hcomments (fun _ => rfl) s hs⟩
  | addColumn schema table column =>
    cases hstatements
    exact List.forall_mem_cons.mpr ⟨rfl, hcomments fun _ => rfl⟩
  | createIndex schema table name columns unique method late =>
    unfold Operation.statements at hstatements
    dsimp only at hstatements
    generalize (if name.isEmpty then _ else name) = name' at hstatements
    cases hcreate : Sql.createIndex schema table columns name' unique method with
    | error fault =>
      rw [hcreate] at hstatements
      cases hstatements
    | ok s =>
      rw [hcreate] at hstatements
      cases hstatements
      rw [List.forall_mem_singleton, Sql.createIndex_ok hcreate]
      cases unique <;> rfl
  | addForeignKey schema table constraint column refTable refColumn onDelete =>
    unfold Operation.statements at hstatements
    dsimp only at hstatements
    cases hadd : Sql.addForeignKey? schema table constraint column refTable refColumn onDelete with
    | none =>
      rw [hadd] at hstatements
      cases hstatements
    | some s =>
      rw [hadd] at hstatements
      cases hstatements
      rw [List.forall_mem_singleton, (Sql.addForeignKey_eq_some hadd).2]
      rfl
  | createUpdatedTrigger schema table =>
    cases hstatements
    exact List.forall_mem_cons.mpr ⟨rfl, List.forall_mem_singleton.mpr rfl⟩
  | blank => cases hstatements
  | _ =>
    cases hstatements
    exact List.forall_mem_singleton.mpr rfl

/-- A statement that creates a type is that of the operation for this type. -/
theorem createsType_iff {op : Operation} {sql : String} (hwrites : Session.Writes op sql) {schema type : String} :
    CreatesType schema type sql ↔ ∃ labels enumeration, op = .createEnumType schema type labels enumeration := by
  obtain ⟨statements, hstatements, s, hs, hrender⟩ := hwrites
  have hsql : sql = String.join (s.map Sql.Piece.render) := by
    unfold Operation.renderStatement Sql.render? at hrender
    split at hrender
    · next text htext =>
      split at htext
      · cases htext
        cases hrender
        rfl
      · cases htext
    · cases hrender
  have hown : ∀ {schema type : String} {labels : List String} {enumeration : String},
      op = .createEnumType schema type labels enumeration → CreatesType schema type sql := by
    rintro schema type labels enumeration rfl
    cases hstatements
    obtain rfl := List.mem_singleton.mp hs
    refine ⟨String.join ((Sql.separatedBy ", " (labels.map fun l => [.literal l]) ++
      [Sql.Piece.fixed ")"]).map Sql.Piece.render), ?_⟩
    rw [hsql, ← String.join_append, ← List.map_append]
    simp [Sql.createEnum, Sql.typeOpening]
  constructor
  · intro hcreates
    by_cases hother : ∀ schema type labels enumeration, op ≠ .createEnumType schema type labels enumeration
    · have hopens := Operation.opensOtherwise_of_mem hother hstatements s hs
      rw [hsql] at hcreates
      exact absurd hcreates (Sql.not_createsType hopens)
    · simp only [not_forall, ne_eq, not_not] at hother
      obtain ⟨schema', type', labels, enumeration, hop⟩ := hother
      obtain ⟨rfl, rfl⟩ := Sql.createsType_inj hcreates (hown hop)
      exact ⟨labels, enumeration, hop⟩
  · rintro ⟨labels, enumeration, hop⟩
    exact hown hop

end SchemaReconcile.Catalog
