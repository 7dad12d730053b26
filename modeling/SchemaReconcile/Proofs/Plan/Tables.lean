import SchemaReconcile.Proofs.Catalog.Keys
import SchemaReconcile.Proofs.Extract.WellFormed
import SchemaReconcile.Proofs.Plan.Rendered

/-!
# Tables and added columns

An entity of an extracted model has a table whose columns are those of its fields and then the timestamps that no field
takes.  The extraction holds the columns of fields apart, folded as they are, so all columns are different.  One of them
is a key, since the extraction asks for one identifier and timestamps are none.

The rest is about texts.  The lexer finds one key constraint in the statement that creates the table (`HasKey`): the
word `PRIMARY` can come from nowhere else, whatever the names are.  In a statement that adds a column, the word `NULL`
can come only from `NOT NULL`, which is said only together with a default, so rows that are there already can take the
column (`default_of_notNull`).
-/

namespace SchemaReconcile

namespace Sql

open Catalog.Operation (IsStored)

/-! ## Key constraints -/

/-- Tokens with one key constraint, which names certain columns. -/
def HasKey (names : List String) (ts : List Token) : Prop :=
  ∃ before after, ts = before ++ (words "PRIMARY KEY" ++ listed (nameTokens names)) ++ after ∧
    primary ∉ before ∧ primary ∉ after

/-- The last group stands behind the others and their commas. -/
theorem commas_concat (groups : List (List Token)) (ts : List Token) :
    commas (groups ++ [ts]) = groups.flatMap (fun us => us ++ [.symbol ',']) ++ ts := by
  induction groups with
  | nil => rfl
  | cons us rest ih =>
    have hne : rest ++ [ts] ≠ [] := by simp
    rw [List.cons_append, commas.eq_3 us (rest ++ [ts]) hne, ih, List.flatMap_cons]
    simp

/-- The statement that creates a table with key columns has one key constraint, which names these columns. -/
theorem hasKey_createTable (schema table : String) {columns : List Column} (h : ∀ c ∈ columns, IsStored c)
    {names : List String} (hkey : keyColumns columns = names) (hne : names ≠ []) :
    HasKey names (words "CREATE TABLE IF NOT EXISTS" ++ qualifiedTokens schema table ++
      listed (columns.map (columnTokens · true) ++ keyTokens columns)) := by
  have htokens : keyTokens columns = [words "PRIMARY KEY" ++ listed (nameTokens names)] := by
    rw [keyTokens, hkey]
    cases names with
    | nil => exact absurd rfl hne
    | cons name rest => rfl
  refine ⟨words "CREATE TABLE IF NOT EXISTS" ++ qualifiedTokens schema table ++ .symbol '(' ::
    (columns.map (columnTokens · true)).flatMap (fun us => us ++ [.symbol ',']), [.symbol ')'], ?_, ?_, by simp⟩
  · rw [htokens, listed, commas_concat]
    simp only [List.append_assoc, List.cons_append]
  · have hcolumns : ∀ c ∈ columns, primary ∉ columnTokens c true := fun c hc =>
      primary_not_mem_columnTokens (h c hc) true
    simpa (disch := decide) [qualifiedTokens, primary_mem_words] using hcolumns

/-! ## Added columns -/

/-- A column that is added to a table and holds no null has a default, which fills it in the rows that are there. -/
theorem default_of_notNull {schema table : String} {c : Column} (h : IsStored c)
    (hnull : words "NOT NULL" <:+: words "ALTER TABLE" ++ qualifiedTokens schema table ++
      words "ADD COLUMN IF NOT EXISTS" ++ columnTokens c false) :
    words "DEFAULT NOW" ++ listed [] <:+ words "ALTER TABLE" ++ qualifiedTokens schema table ++
      words "ADD COLUMN IF NOT EXISTS" ++ columnTokens c false := by
  have htype : .word "NULL" ∉ typeTokens c.type := by
    intro hmem
    obtain ⟨kind, hmem⟩ := mem_words_of_mem_typeTokens h hmem
    revert hmem
    cases kind <;> decide
  have hword : (.word "NULL" : Token) ∈ words "NOT NULL" := by decide
  have hdefault : c.default.isSome = true := by
    by_contra hnone
    have hmem := hnull.subset hword
    have hsays : c.saysNotNull false = false := by
      rw [Bool.not_eq_true] at hnone
      rw [Column.saysNotNull, hnone, Bool.or_false, Bool.and_false]
    have hfront : (.word "NULL" : Token) ∉ words "ALTER TABLE" ∧
        (.word "NULL" : Token) ∉ words "ADD COLUMN IF NOT EXISTS" := by
      decide
    simp [columnTokens, hsays, hnone, htype, hfront, qualifiedTokens] at hmem
  rw [columnTokens, if_pos hdefault]
  exact (List.suffix_append _ _).trans (List.suffix_append _ _)

end Sql

namespace Plan

open Catalog (Operation)
open Settings (Options)
open Sql (words listed HasKey)

variable {options : Options} {m : Model}

/-- The names in the operations for a sound model are not empty. -/
theorem Placed.names_ne_empty {op : Operation} (h : Placed options m op) (hm : m.Sound)
    (hschema : Naming.isSafe options.schema = true) : ∀ p ∈ op.names, p.2 ≠ "" := fun p hp =>
  ne_empty_of_spelled ((h.names p hp).spelled (Naming.spelled_of_isSafe hschema)
    (fun e he => Naming.spelled_of_isSafe (hm.entity e he).safeTable)
    fun e he f hf => Naming.spelled_of_isSafe ((hm.entity e he).columns.safe f hf))

/-- The first statement of an operation for a sound model is read in its text, if it says no texts. -/
theorem Placed.lex_head {op : Operation} (h : Placed options m op) (hm : m.Sound)
    (hschema : Naming.isSafe options.schema = true) {s : Sql.Statement} {rest : List Sql.Statement}
    (hstatements : op.statements = .ok (s :: rest)) {ts : List Sql.Token} (hreads : Sql.Reads s ts)
    (hstrings : Sql.strings ts = []) :
    ∃ text, Operation.renderStatement s = .ok text ∧ Sql.lex text = some ts := by
  refine ⟨_, Operation.lex_textOf hreads ?_ (by simp [hstrings])⟩
  exact h.shaped.not_mentions_empty (h.names_ne_empty hm hschema) hstatements s List.mem_cons_self

/-- The table of an entity has the columns of its fields in their order and then the timestamps that no field takes,
which are all different.  One of them is a key: the column of the only identifier, which the only key constraint of the
statement that creates the table names.  A statement that adds one of them with `NOT NULL` has a default. -/
theorem table_wellFormed {d : Document} (hextract : extract d = .ok m)
    (hschema : Naming.isSafe options.schema = true) {e : Entity} (he : e ∈ m.entities) :
    ∃ c key, e.compile (targetOf options m) = .ok c ∧
      (c.columns options.timestamps).map (·.name) = e.fields.map EntityField.columnName ++
        (if options.timestamps then
          [createdColumn, updatedColumn].filter fun name => !(e.fields.map EntityField.columnName).contains name
        else []) ∧
      ((c.columns options.timestamps).map (·.name)).Nodup ∧
      (e.fields.filter fun f => f.type == .scalar .id) = [key] ∧
      ((c.columns options.timestamps).filter (·.primaryKey)).map (·.name) = [key.columnName] ∧
      (∃ text ts, Operation.renderStatement
          (Sql.createTable options.schema c.table (c.columns options.timestamps)) = .ok text ∧
        Sql.lex text = some ts ∧ HasKey [key.columnName] ts) ∧
      ∀ column ∈ c.columns options.timestamps, ∃ text ts,
        Operation.renderStatement (Sql.addColumn options.schema c.table column) = .ok text ∧
        Sql.lex text = some ts ∧ (words "NOT NULL" <:+: ts → words "DEFAULT NOW" ++ listed [] <:+ ts) := by
  have hsound := extract_sound hextract
  obtain ⟨t, -, hentity⟩ := exists_left_of_forall₂ (extract_wellFormed hextract).entities he
  obtain ⟨key, hkey, -⟩ := hentity.key
  obtain ⟨c, hc, -, hnodup⟩ := hentity.columns options.schema options.timestamps
  have hnames := c.names_columns options.timestamps
  rw [CompiledEntity.freeTimestamps, Entity.fieldColumns_eq hc] at hnames
  have hkeys := Entity.keyColumns_eq hc options.timestamps
  rw [hkey, List.map_singleton] at hkeys
  have hplaced : ∀ op ∈ entityOperations options e c, Placed options m op := fun op hop =>
    placed_of_mem_entityOperations he hc hop
  have hstored : ∀ column ∈ c.columns options.timestamps, Operation.IsStored column := fun column hcolumn =>
    stored_of_mem_columns hc hcolumn
  refine ⟨c, key, hc, hnames, hnodup, hkey, hkeys, ?_, fun column hcolumn => ?_⟩
  · have hkeyed := Sql.hasKey_createTable options.schema c.table hstored hkeys (List.cons_ne_nil _ _)
    obtain ⟨text, hrender, hlex⟩ := (hplaced _ (mem_entityOperations.mpr (.inl rfl))).lex_head hsound hschema rfl
      (Sql.reads_createTable hstored) (by simp [List.flatMap_map])
    exact ⟨text, _, hrender, hlex, hkeyed⟩
  · obtain ⟨text, hrender, hlex⟩ :=
      (hplaced _ (mem_entityOperations.mpr (.inr (.inl ⟨column, hcolumn, rfl⟩)))).lex_head hsound hschema rfl
        (Sql.reads_addColumn (hstored column hcolumn)) (by simp)
    exact ⟨text, _, hrender, hlex, Sql.default_of_notNull (hstored column hcolumn)⟩

/-- The table of books has the columns of its four fields and both timestamps, and the first column is its key. -/
theorem table_wellFormed_shelfModel :
    extract shelfDocument = .ok shelfModel ∧ Naming.isSafe "public" = true ∧
      ∃ e ∈ shelfModel.entities, ∃ c, e.compile (targetOf {} shelfModel) = .ok c ∧
        (c.columns true).map (·.name) = ["id", "shelf_id", "place", "notes", "created_at", "updated_at"] ∧
        ∃ text ts, Operation.renderStatement (Sql.createTable "public" c.table (c.columns true)) = .ok text ∧
          Sql.lex text = some ts ∧ HasKey ["id"] ts := by
  have hextract : extract shelfDocument = .ok shelfModel := eq_ok_of_toOption (by decide +kernel)
  have hbook : ∃ e ∈ shelfModel.entities,
      e.fields.map EntityField.columnName = ["id", "shelf_id", "place", "notes"] ∧
        (e.fields.filter fun f => f.type == .scalar .id).map EntityField.columnName = ["id"] := by
    decide +kernel
  obtain ⟨e, he, hcolumns, hid⟩ := hbook
  have hschema : Naming.isSafe ({} : Options).schema = true := by decide
  obtain ⟨c, key, hc, hnames, -, hkey, -, ⟨text, ts, hrender, hlex, hhas⟩, -⟩ := table_wellFormed hextract hschema he
  rw [hcolumns] at hnames
  rw [hkey, List.map_singleton] at hid
  rw [hid] at hhas
  exact ⟨hextract, hschema, e, he, c, hc, hnames, text, ts, hrender, hlex, hhas⟩

end Plan

end SchemaReconcile
