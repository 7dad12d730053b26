import SchemaReconcile.Proofs.Catalog.Names
import SchemaReconcile.Proofs.Sql.Reading

/-!
# The tokens of an operation

Each operation has a skeleton: for each of its statements the words and symbols that are always there, with
one identifier for each name and one string for each text.  It is written down without a look at any text of
a statement.  The lexer finds exactly these tokens in the statements that carry the operation out
(`lex_render`), so nothing in a name or a text gets out of its place.

Only operations of the shapes that plans have are considered (`Shaped`): the type of a column, the access
method of an index and the action on deletion are put into a statement as they are.
-/

namespace SchemaReconcile

namespace Sql

/-! ## Tokens of parts -/

/-- Words with blanks between them. -/
def words (text : String) : List Token :=
  (text.toList.splitOn ' ').map fun cs => .word (String.ofList cs)

/-- Two names with a point between them. -/
def qualifiedTokens (first second : String) : List Token :=
  [Token.identifier first, .symbol '.', .identifier second]

/-- One name for each column. -/
def nameTokens (names : List String) : List (List Token) := names.map fun name => [Token.identifier name]

/-- The type of a column: the words of a scalar kind, or the name of an enum type. -/
def typeTokens : Statement → List Token
  | [.fixed text] => words text
  | .identifier schema :: _ :: .identifier type :: tail =>
    qualifiedTokens schema type ++ if tail.isEmpty then [] else [Token.symbol '[', .symbol ']']
  | _ => []

/-- The definition of a column. -/
def columnTokens (c : Column) (allowNotNull : Bool) : List Token :=
  [Token.identifier c.name] ++ typeTokens c.type ++
    (if c.saysNotNull allowNotNull then words "NOT NULL" else []) ++
    if c.default.isSome then words "DEFAULT NOW" ++ listed [] else []

/-- The primary key constraint of a table. -/
def keyTokens (columns : List Column) : List (List Token) :=
  match keyColumns columns with
  | [] => []
  | names => [words "PRIMARY KEY" ++ listed (nameTokens names)]

/-- The words of an index, which may be unique. -/
def indexWords (unique : Bool) : List Token :=
  words (if unique then "CREATE UNIQUE INDEX IF NOT EXISTS" else "CREATE INDEX IF NOT EXISTS")

/-- The access method of an index. -/
def methodTokens : Option String → List Token
  | none => []
  | some m => [Token.word "USING", .word m]

/-- A comment on an object. -/
def commentTokens (object : List Token) (comment : String) : List Token :=
  words "COMMENT ON" ++ object ++ [Token.word "IS", .string comment]

/-- The call of the function that sets the time of the last update. -/
def callTokens : List Token := [Token.symbol '.'] ++ words "update_updated_at_column" ++ listed []

/-- What follows the schema of this function where it is created. -/
def functionRest : List Token :=
  callTokens ++ words "RETURNS TRIGGER LANGUAGE plpgsql AS" ++
    [Token.body ("\n            BEGIN\n                NEW.updated_at = NOW();\n" ++
      "                RETURN NEW;\n            END;\n            ")]

/-- This function. -/
def functionTokens (schema : String) : List Token :=
  words "CREATE OR REPLACE FUNCTION" ++ [Token.identifier schema] ++ functionRest

/-- The trigger that calls it before a row is updated. -/
def triggerTokens (schema table name : String) : List Token :=
  words "CREATE TRIGGER" ++ [Token.identifier name] ++ words "BEFORE UPDATE ON" ++
    qualifiedTokens schema table ++
      (words "FOR EACH ROW EXECUTE FUNCTION" ++ ([Token.identifier schema] ++ callTokens))

/-- The text of a string. -/
def Token.string? : Token → Option String
  | string text => some text
  | _ => none

/-- The texts of the strings among tokens, in order. -/
def strings (ts : List Token) : List String := ts.filterMap Token.string?

end Sql

open Sql (Token Reads words qualifiedTokens nameTokens columnTokens keyTokens indexWords methodTokens
  commentTokens functionTokens triggerTokens listed strings)

namespace Catalog

namespace Operation

/-- A comment that is said: there is one and it is not empty. -/
def said (comment : Option String) : List String := comment.toList.filter fun c => !c.isEmpty

/-- The comment on a column. -/
def columnCommentTokens (schema table : String) (c : Sql.Column) : List (List Token) :=
  (said c.comment).map
    (commentTokens (words "COLUMN" ++ qualifiedTokens schema table ++ [Token.symbol '.', .identifier c.name]))

/-- The tokens of the statements of an operation. -/
def skeleton : Operation → List (List Token)
  | createSchema schema => [words "CREATE SCHEMA IF NOT EXISTS" ++ [Token.identifier schema]]
  | createEnumType schema type labels _ =>
    [words "CREATE TYPE" ++ qualifiedTokens schema type ++
      (words "AS ENUM" ++ listed (labels.map fun label => [Token.string label]))]
  | commentOnType schema type comment =>
    [commentTokens (words "TYPE" ++ qualifiedTokens schema type) comment]
  | createTable schema table columns comment =>
    (words "CREATE TABLE IF NOT EXISTS" ++ qualifiedTokens schema table ++
        listed (columns.map (columnTokens · true) ++ keyTokens columns)) ::
      (said comment).map (commentTokens (words "TABLE" ++ qualifiedTokens schema table)) ++
        columns.flatMap (columnCommentTokens schema table)
  | addColumn schema table column =>
    (words "ALTER TABLE" ++ qualifiedTokens schema table ++ words "ADD COLUMN IF NOT EXISTS" ++
        columnTokens column false) ::
      columnCommentTokens schema table column
  | createIndex schema table name columns unique method _ =>
    [indexWords unique ++ [Token.identifier name] ++ words "ON" ++ qualifiedTokens schema table ++
      methodTokens method ++ listed (nameTokens columns)]
  | addForeignKey schema table constraint column refTable refColumn onDelete =>
    [words "ALTER TABLE" ++ qualifiedTokens schema table ++ words "ADD CONSTRAINT" ++
      [Token.identifier constraint] ++ words "FOREIGN KEY" ++ listed [[Token.identifier column]] ++
      words "REFERENCES" ++ qualifiedTokens schema refTable ++ listed [[Token.identifier refColumn]] ++
      words "ON DELETE" ++ (words onDelete ++ words "ON UPDATE CASCADE")]
  | commentOnConstraint schema table constraint comment =>
    [commentTokens (words "CONSTRAINT" ++ [Token.identifier constraint] ++ words "ON" ++
      qualifiedTokens schema table) comment]
  | createUpdatedTrigger schema table =>
    [functionTokens schema, triggerTokens schema table (Naming.triggerName table)]
  | blank => []

/-- The texts in the statements of an operation, in order. -/
def texts : Operation → List String
  | createEnumType _ _ labels _ => labels
  | commentOnType _ _ comment => [comment]
  | createTable _ _ columns comment => said comment ++ columns.flatMap fun c => said c.comment
  | addColumn _ _ column => said column.comment
  | commentOnConstraint _ _ _ comment => [comment]
  | _ => []

/-- What an operation puts into its statements as it is comes from a fixed choice. -/
def Shaped : Operation → Prop
  | createTable _ _ columns _ => ∀ c ∈ columns, IsStored c
  | addColumn _ _ column => IsStored column
  | createIndex _ _ _ _ _ method _ => ∀ m, method = some m → ∃ known : IndexMethod, m = known.name
  | addForeignKey _ _ _ _ _ _ onDelete => onDelete ∈ Sql.deleteActions
  | blank => False
  | _ => True

end Operation

end Catalog

namespace Sql

open Catalog.Operation (IsStored)

/-! ## Reading parts -/

/-- The type of a column is read, and ends in no literal. -/
theorem read_type {c : Column} (hc : IsStored c) :
    ∃ e, e ≠ .text ∧ read .gap c.type = some (typeTokens c.type, e) := by
  obtain ⟨kind, htype⟩ | ⟨schema, type, isArray, htype⟩ := hc.type
  · rw [htype]
    refine ⟨.word, by decide, ?_⟩
    cases kind <;> rfl
  · rw [htype]
    cases isArray with
    | false => exact ⟨.name, by decide, rfl⟩
    | true => exact ⟨.gap, by decide, rfl⟩

/-- The definition of a column is read part by part. -/
theorem read_definition {c : Column} (hc : IsStored c) (allowNotNull : Bool) :
    ∃ e, read .gap (c.definition allowNotNull) = some (columnTokens c allowNotNull, e) := by
  obtain ⟨e, he, htype⟩ := read_type hc
  have hname : read .gap [.identifier c.name, .fixed " "] = some ([.identifier c.name], .gap) := rfl
  have hnull : ∃ e', e' ≠ .text ∧
      read e (if c.saysNotNull allowNotNull then [.fixed " NOT NULL"] else []) =
        some (if c.saysNotNull allowNotNull then words "NOT NULL" else [], e') := by
    cases c.saysNotNull allowNotNull with
    | false => exact ⟨e, he, rfl⟩
    | true =>
      refine ⟨.word, by decide, ?_⟩
      cases e with
      | text => exact absurd rfl he
      | _ => rfl
  obtain ⟨e', he', hnull⟩ := hnull
  unfold Column.definition columnTokens
  cases hd : c.default with
  | none => exact ⟨e', read_append (read_append (read_append hname htype) hnull) rfl⟩
  | some d =>
    obtain rfl := hc.default d hd
    have hdefault : read e' [.fixed " DEFAULT ", .fixed "NOW()"] =
        some (words "DEFAULT NOW" ++ listed [], .gap) := by
      cases e' with
      | text => exact absurd rfl he'
      | _ => rfl
    exact ⟨.gap, read_append (read_append (read_append hname htype) hnull) hdefault⟩

/-- Names are read one by one. -/
theorem reads_nameTokens (names : List String) :
    List.Forall₂ Reads (names.map fun name => [.identifier name]) (nameTokens names) := by
  rw [nameTokens, List.forall₂_map_left_iff, List.forall₂_map_right_iff, List.forall₂_same]
  exact fun name _ => ⟨.name, rfl⟩

/-- The primary key constraint is read. -/
theorem reads_keyClause (columns : List Column) :
    List.Forall₂ Reads (keyClause columns) (keyTokens columns) := by
  unfold keyClause keyTokens
  cases keyColumns columns with
  | nil => exact .nil
  | cons name names => exact .cons ⟨.gap, read_listed rfl (reads_nameTokens (name :: names))⟩ .nil

/-- The statement that creates a table is read part by part. -/
theorem reads_createTable {schema table : String} {columns : List Column}
    (h : ∀ c ∈ columns, IsStored c) :
    Reads (createTable schema table columns)
      (words "CREATE TABLE IF NOT EXISTS" ++ qualifiedTokens schema table ++
        listed (columns.map (columnTokens · true) ++ keyTokens columns)) := by
  have hcolumns : List.Forall₂ Reads (columns.map (·.definition)) (columns.map (columnTokens · true)) := by
    rw [List.forall₂_map_left_iff, List.forall₂_map_right_iff, List.forall₂_same]
    exact fun c hc => read_definition (h c hc) true
  have htable : read .gap (.fixed "CREATE TABLE IF NOT EXISTS " :: qualified schema table) =
      some (words "CREATE TABLE IF NOT EXISTS" ++ qualifiedTokens schema table, .name) := rfl
  have hopening : readPiece .name (.fixed " (") = some ([] ++ [.symbol '('], .gap) := rfl
  have hparts := read_listed hopening (List.rel_append hcolumns (reads_keyClause columns))
  rw [createTable, List.append_assoc]
  exact ⟨.gap, read_append htable hparts⟩

/-- The statement that creates an enum type is read part by part. -/
theorem reads_createEnum (schema type : String) (labels : List String) :
    Reads (createEnum schema type labels)
      (words "CREATE TYPE" ++ qualifiedTokens schema type ++
        (words "AS ENUM" ++ listed (labels.map fun label => [Token.string label]))) := by
  have hlabels : List.Forall₂ Reads (labels.map fun label => [.literal label])
      (labels.map fun label => [Token.string label]) := by
    rw [List.forall₂_map_left_iff, List.forall₂_map_right_iff, List.forall₂_same]
    exact fun label _ => ⟨.text, rfl⟩
  have htype : read .gap (.fixed "CREATE TYPE " :: qualified schema type) =
      some (words "CREATE TYPE" ++ qualifiedTokens schema type, .name) := rfl
  rw [createEnum, List.append_assoc]
  exact ⟨.gap, read_append htype (read_listed rfl hlabels)⟩

/-- The statement that adds a column is read part by part. -/
theorem reads_addColumn {schema table : String} {c : Column} (hc : IsStored c) :
    Reads (addColumn schema table c)
      (words "ALTER TABLE" ++ qualifiedTokens schema table ++ words "ADD COLUMN IF NOT EXISTS" ++
        columnTokens c false) := by
  obtain ⟨e, hcolumn⟩ := read_definition hc false
  have htable : read .gap (.fixed "ALTER TABLE " :: qualified schema table) =
      some (words "ALTER TABLE" ++ qualifiedTokens schema table, .name) := rfl
  have hadd : readPiece .name (.fixed " ADD COLUMN IF NOT EXISTS ") =
      some (words "ADD COLUMN IF NOT EXISTS", .gap) := rfl
  rw [List.append_assoc]
  exact ⟨e, read_append htable (read_cons hadd hcolumn)⟩

/-- The statement that creates an index is read part by part. -/
theorem reads_createIndex (schema table : String) (columns : List String) (name : String) (unique : Bool)
    {method : Option String} (hmethod : ∀ m, method = some m → ∃ known : IndexMethod, m = known.name) :
    ∃ s, createIndex schema table columns name unique method = .ok s ∧
      Reads s (indexWords unique ++ [Token.identifier name] ++ words "ON" ++ qualifiedTokens schema table ++
        methodTokens method ++ listed (nameTokens columns)) := by
  have hok : ∃ s, createIndex schema table columns name unique method = .ok s := by
    cases method with
    | none => exact ⟨_, rfl⟩
    | some m =>
      obtain ⟨known, rfl⟩ := hmethod m rfl
      cases known <;> exact ⟨_, rfl⟩
  obtain ⟨s, hs⟩ := hok
  refine ⟨s, hs, ?_⟩
  have htable : read .gap (.fixed ("CREATE " ++ (if unique then "UNIQUE " else "") ++
        "INDEX IF NOT EXISTS ") :: .identifier name :: .fixed " ON " :: qualified schema table) =
      some (indexWords unique ++ [Token.identifier name] ++ words "ON" ++ qualifiedTokens schema table,
        .name) := by
    cases unique <;> rfl
  have hclause : ∃ e, readPiece e (.fixed " (") = some ([] ++ [.symbol '('], .gap) ∧
      read .name (methodClause method) = some (methodTokens method, e) := by
    cases method with
    | none => exact ⟨.name, rfl, rfl⟩
    | some m =>
      obtain ⟨known, rfl⟩ := hmethod m rfl
      refine ⟨.word, rfl, ?_⟩
      cases known <;> rfl
  obtain ⟨e, hopening, hclause⟩ := hclause
  have hcolumns := read_listed hopening (reads_nameTokens columns)
  rw [createIndex_ok hs, List.append_assoc]
  exact ⟨.gap, read_append (read_append htable hclause) hcolumns⟩

/-- The statement that adds a foreign key is read part by part. -/
theorem reads_addForeignKey {schema table constraint column refTable refColumn onDelete : String}
    (haction : onDelete ∈ deleteActions) :
    ∃ s, addForeignKey? schema table constraint column refTable refColumn onDelete = some s ∧
      Reads s (words "ALTER TABLE" ++ qualifiedTokens schema table ++ words "ADD CONSTRAINT" ++
        [Token.identifier constraint] ++ words "FOREIGN KEY" ++ listed [[Token.identifier column]] ++
        words "REFERENCES" ++ qualifiedTokens schema refTable ++ listed [[Token.identifier refColumn]] ++
        words "ON DELETE" ++ (words onDelete ++ words "ON UPDATE CASCADE")) := by
  refine ⟨_, if_pos (by simpa using haction), ?_⟩
  have htable : read .gap (.fixed "ALTER TABLE " :: qualified schema table) =
      some (words "ALTER TABLE" ++ qualifiedTokens schema table, .name) := rfl
  have hkey : read .name [.fixed " ADD CONSTRAINT ", .identifier constraint, .fixed " FOREIGN KEY (",
        .identifier column, .fixed ") REFERENCES "] =
      some (words "ADD CONSTRAINT" ++ [Token.identifier constraint] ++ words "FOREIGN KEY" ++
        listed [[Token.identifier column]] ++ words "REFERENCES", .gap) := rfl
  have hrefers : read .gap (qualified schema refTable) =
      some (qualifiedTokens schema refTable, .name) := rfl
  have hend : read .name [.fixed " (", .identifier refColumn, .fixed ") ON DELETE "] =
      some (listed [[Token.identifier refColumn]] ++ words "ON DELETE", .gap) := rfl
  have haction : read .gap [.fixed onDelete, .fixed " ON UPDATE CASCADE"] =
      some (words onDelete ++ words "ON UPDATE CASCADE", .word) := by
    simp only [deleteActions, List.mem_cons, List.not_mem_nil, or_false] at haction
    rcases haction with rfl | rfl | rfl | rfl <;> rfl
  have hread := read_append htable (read_append hkey (read_append hrefers (read_append hend haction)))
  refine ⟨.word, ?_⟩
  simpa only [List.append_assoc, List.cons_append, List.nil_append] using hread

/-- The statement that creates the function for the last update is read part by part. -/
theorem reads_updatedAtFunction (schema : String) :
    Reads (updatedAtFunction schema) (functionTokens schema) := by
  have hname : read .gap ((updatedAtFunction schema).take 2) =
      some (words "CREATE OR REPLACE FUNCTION" ++ [Token.identifier schema], .name) := rfl
  have hrest : read .name ((updatedAtFunction schema).drop 2) = some (functionRest ++ [], .gap) := by
    refine read_cons ?_ rfl
    rw [readPiece, String.toList_append, String.toList_append, String.toList_append,
      String.toList_ofList, String.toList_ofList, String.toList_ofList, String.toList_ofList]
    decide +kernel
  rw [List.append_nil] at hrest
  rw [functionTokens, ← List.take_append_drop 2 (updatedAtFunction schema)]
  exact ⟨.gap, read_append hname hrest⟩

/-- The statement that creates the trigger for the last update is read part by part. -/
theorem reads_updatedAtTrigger (schema table name : String) :
    Reads (updatedAtTrigger schema table name) (triggerTokens schema table name) := by
  have hname : read .gap [.fixed "\n            CREATE TRIGGER ", .identifier name,
        .fixed "\n            BEFORE UPDATE ON "] =
      some (words "CREATE TRIGGER" ++ [Token.identifier name] ++ words "BEFORE UPDATE ON", .gap) := rfl
  have htable : read .gap (qualified schema table) = some (qualifiedTokens schema table, .name) := rfl
  have hrow : readPiece .name (.fixed "\n            FOR EACH ROW\n            EXECUTE FUNCTION ") =
      some (words "FOR EACH ROW EXECUTE FUNCTION", .gap) := rfl
  have hcall : read .gap [.identifier schema, .fixed ".update_updated_at_column()\n        "] =
      some ([Token.identifier schema] ++ callTokens, .gap) := rfl
  exact ⟨.gap, read_append (read_append hname htable) (read_cons hrow hcall)⟩

end Sql

namespace Catalog

namespace Operation

/-! ## Reading statements -/

/-- Comments are said one by one. -/
theorem comments_eq (comment : Option String) (statement : String → Sql.Statement) :
    comments comment statement = (said comment).map statement := by
  cases comment with
  | none => rfl
  | some c =>
    rw [comments, said, Option.toList_some, List.filter_singleton]
    cases c.isEmpty <;> rfl

/-- The comments on a column are read. -/
theorem reads_columnComments (schema table : String) (c : Sql.Column) :
    List.Forall₂ Reads (columnComments schema table c) (columnCommentTokens schema table c) := by
  rw [columnComments, comments_eq, columnCommentTokens, List.forall₂_map_left_iff,
    List.forall₂_map_right_iff, List.forall₂_same]
  exact fun comment _ => ⟨.text, rfl⟩

/-- An operation with names has statements, and they are read as its skeleton. -/
theorem reads_statements {op : Operation} (h : op.Shaped) (hnames : ∀ p ∈ op.names, p.2 ≠ "") :
    ∃ statements, op.statements = .ok statements ∧ List.Forall₂ Reads statements op.skeleton := by
  cases op with
  | createSchema schema => exact ⟨_, rfl, .cons ⟨.name, rfl⟩ .nil⟩
  | createEnumType schema type labels enumeration =>
    exact ⟨_, rfl, .cons (Sql.reads_createEnum schema type labels) .nil⟩
  | commentOnType schema type comment => exact ⟨_, rfl, .cons ⟨.text, rfl⟩ .nil⟩
  | createTable schema table columns comment =>
    have htable : List.Forall₂ Reads (comments comment (Sql.commentOnTable schema table))
        ((said comment).map (commentTokens (words "TABLE" ++ qualifiedTokens schema table))) := by
      rw [comments_eq, List.forall₂_map_left_iff, List.forall₂_map_right_iff, List.forall₂_same]
      exact fun comment _ => ⟨.text, rfl⟩
    have hcolumns : List.Forall₂ Reads (columns.flatMap (columnComments schema table))
        (columns.flatMap (columnCommentTokens schema table)) := by
      refine List.rel_flatMap (List.forall₂_same.mpr fun _ _ => rfl) ?_
      rintro c _ rfl
      exact reads_columnComments schema table c
    exact ⟨_, rfl, List.rel_append (.cons (Sql.reads_createTable h) htable) hcolumns⟩
  | addColumn schema table column =>
    exact ⟨_, rfl, .cons (Sql.reads_addColumn h) (reads_columnComments schema table column)⟩
  | createIndex schema table name columns unique method late =>
    have hname : name ≠ "" := hnames (.index, name) (by simp [names])
    obtain ⟨s, hs, hreads⟩ := Sql.reads_createIndex schema table columns name unique h
    refine ⟨[s], ?_, .cons hreads .nil⟩
    simp only [statements, String.isEmpty_iff, if_neg hname, hs]
  | addForeignKey schema table constraint column refTable refColumn onDelete =>
    obtain ⟨s, hs, hreads⟩ := Sql.reads_addForeignKey h
    refine ⟨[s], ?_, .cons hreads .nil⟩
    rw [statements, hs]
  | commentOnConstraint schema table constraint comment => exact ⟨_, rfl, .cons ⟨.text, rfl⟩ .nil⟩
  | createUpdatedTrigger schema table =>
    exact ⟨_, rfl, .cons (Sql.reads_updatedAtFunction schema)
      (.cons (Sql.reads_updatedAtTrigger schema table _) .nil)⟩
  | blank => exact h.elim

end Operation

end Catalog

namespace Sql

/-! ## Texts -/

section strings

variable {ts us : List Token} {text : String}

@[simp] theorem strings_nil : strings [] = [] := rfl

@[simp] theorem strings_word : strings (.word text :: ts) = strings ts := rfl

@[simp] theorem strings_symbol {c : Char} : strings (.symbol c :: ts) = strings ts := rfl

@[simp] theorem strings_identifier : strings (.identifier text :: ts) = strings ts := rfl

@[simp] theorem strings_string : strings (.string text :: ts) = text :: strings ts := rfl

@[simp] theorem strings_body : strings (.body text :: ts) = strings ts := rfl

@[simp] theorem strings_append : strings (ts ++ us) = strings ts ++ strings us :=
  List.filterMap_append

/-- Words are no strings. -/
@[simp] theorem strings_words : strings (words text) = [] := by
  rw [strings, words, List.filterMap_map]
  exact List.filterMap_eq_nil_iff.mpr fun _ _ => rfl

@[simp] theorem strings_qualifiedTokens {first second : String} :
    strings (qualifiedTokens first second) = [] := rfl

/-- The strings in a list are those in its groups. -/
@[simp] theorem strings_listed {groups : List (List Token)} :
    strings (listed groups) = groups.flatMap strings := by
  have hcommas : strings (commas groups) = groups.flatMap strings := by
    induction groups using commas.induct with
    | case1 => rfl
    | case2 ts => simp [commas]
    | case3 ts rest hne ih =>
      rw [commas.eq_3 ts rest hne, strings_append, strings_symbol, ih, List.flatMap_cons]
  simp [listed, hcommas]

/-- There are no strings in names. -/
@[simp] theorem strings_nameTokens {names : List String} : (nameTokens names).flatMap strings = [] := by
  simp [nameTokens]

/-- There are no strings in the definition of a column. -/
@[simp] theorem strings_columnTokens {c : Column} {allowNotNull : Bool} :
    strings (columnTokens c allowNotNull) = [] := by
  have htype : strings (typeTokens c.type) = [] := by
    unfold typeTokens
    split
    · exact strings_words
    · split <;> rfl
    · rfl
  unfold columnTokens
  split <;> split <;> simp [htype]

/-- There are no strings in the primary key constraint of a table. -/
@[simp] theorem strings_keyTokens {columns : List Column} : (keyTokens columns).flatMap strings = [] := by
  unfold keyTokens
  cases keyColumns columns <;> simp

@[simp] theorem strings_commentTokens {object : List Token} {comment : String} :
    strings (commentTokens object comment) = strings object ++ [comment] := by
  simp [commentTokens]

@[simp] theorem strings_callTokens : strings callTokens = [] := by
  simp [callTokens]

end strings

end Sql

namespace Catalog

namespace Operation

/-- The strings of the comment on a column. -/
theorem strings_columnCommentTokens (schema table : String) (c : Sql.Column) :
    (columnCommentTokens schema table c).flatMap strings = said c.comment := by
  simp [columnCommentTokens, List.flatMap_map]

/-- The strings of an operation are its texts, in order. -/
theorem strings_skeleton (op : Operation) : op.skeleton.flatMap strings = op.texts := by
  cases op with
  | createTable schema table columns comment =>
    simp [skeleton, texts, List.flatMap_map, List.flatMap_assoc, strings_columnCommentTokens]
  | addColumn schema table column => simp [skeleton, texts, strings_columnCommentTokens]
  | createIndex schema table name columns unique method late =>
    cases method <;> simp [skeleton, texts, Sql.indexWords, Sql.methodTokens]
  | createUpdatedTrigger schema table =>
    simp [skeleton, texts, Sql.functionTokens, Sql.functionRest, Sql.triggerTokens]
  | _ => simp [skeleton, texts, List.flatMap_map]

/-! ## Rendering -/

/-- An operation with names, of a shape that plans have, is regular. -/
theorem Shaped.regular {op : Operation} (h : op.Shaped) (hnames : ∀ p ∈ op.names, p.2 ≠ "") :
    op.Regular := by
  cases op with
  | createTable schema table columns comment => exact fun c hc => (h c hc).isRegular
  | addColumn schema table column => exact h.isRegular
  | createIndex schema table name columns unique method late =>
    exact hnames (.index, name) (by simp [names])
  | _ => exact trivial

/-- The text of a statement whose literals can be written. -/
def textOf (s : Sql.Statement) : String := String.join (s.map Sql.Piece.render)

/-- A statement whose texts have no `U+0000` has a text with the tokens that are read in it. -/
theorem lex_textOf {s : Sql.Statement} {ts : List Token} (hreads : Reads s ts)
    (hnames : ¬ Sql.Mentions s "") (htexts : ∀ text ∈ strings ts, Char.ofNat 0 ∉ text.toList) :
    renderStatement s = .ok (textOf s) ∧ Sql.lex (textOf s) = some ts := by
  obtain ⟨e, hread⟩ := hreads
  have hwritable : s.all Sql.Piece.writable = true := by
    rw [List.all_eq_true]
    intro p hp
    cases p with
    | literal text =>
      have hstring : text ∈ strings ts :=
        List.mem_filterMap.mpr ⟨.string text, Sql.string_mem_of_read hread hp, rfl⟩
      simpa [Sql.Piece.writable] using htexts text hstring
    | _ => rfl
  have hrender : Sql.render? s = some (textOf s) := if_pos hwritable
  refine ⟨?_, Sql.lex_of_read hread hnames hrender⟩
  rw [renderStatement, hrender]

/-- The statements of an operation with names mention no empty name. -/
theorem Shaped.not_mentions_empty {op : Operation} (h : op.Shaped) (hnames : ∀ p ∈ op.names, p.2 ≠ "")
    {statements : List Sql.Statement} (hstatements : op.statements = .ok statements) :
    ∀ s ∈ statements, ¬ Sql.Mentions s "" := by
  intro s hs hempty
  obtain ⟨p, hp, hname⟩ := List.mem_map.mp (mem_names_of_mentions (h.regular hnames) hstatements hs hempty)
  exact hnames p hp hname

/-- Whatever its names and texts are, an operation has statements in which the lexer finds its skeleton:
names are not empty, and `U+0000` is in no text. -/
theorem lex_render {op : Operation} (h : op.Shaped) (hnames : ∀ p ∈ op.names, p.2 ≠ "")
    (htexts : ∀ text ∈ op.texts, Char.ofNat 0 ∉ text.toList) :
    ∃ rendered, op.render = .ok rendered ∧ rendered.map Sql.lex = op.skeleton.map some := by
  obtain ⟨statements, hstatements, hreads⟩ := reads_statements h hnames
  rw [← strings_skeleton] at htexts
  have hlexed : List.Forall₂ (fun s ts => renderStatement s = .ok (textOf s) ∧
      Sql.lex (textOf s) = some ts) statements op.skeleton := by
    refine forall₂_imp_of_mem hreads fun s hs ts hts hread => ?_
    exact lex_textOf hread (h.not_mentions_empty hnames hstatements s hs) fun text htext =>
      htexts text (List.mem_flatMap.mpr ⟨ts, hts, htext⟩)
  refine ⟨statements.map textOf, bind_eq_ok.mpr ⟨statements, hstatements, ?_⟩, ?_⟩
  · refine mapM_eq_ok_map fun s hs => ?_
    obtain ⟨ts, -, hrender, -⟩ := exists_right_of_forall₂ hlexed hs
    exact hrender
  · rw [List.map_map]
    exact (map_eq_map_of_forall₂ hlexed fun s ts hs => hs.2.symm).symm

end Operation

end Catalog

end SchemaReconcile
