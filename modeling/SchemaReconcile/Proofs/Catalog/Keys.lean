import SchemaReconcile.Proofs.Catalog.Skeleton

/-!
# Keys that statements declare

A statement can declare a column of its table a primary key in two ways: by a constraint of the table, or in
the definition of the column itself (`DeclaresKey`).  Both need the word `PRIMARY`.  Of the statements of an
operation only the first one of a new table has it (`eq_createTable_of_primary`), where the constraint names
the key columns of the table (`declaresKey_createTable`).
-/

namespace SchemaReconcile

namespace Sql

/-! ## Declarations -/

/-- Tokens of a statement that creates or alters a table. -/
def IsAboutTable (table : String) (ts : List Token) : Prop :=
  ∃ schema, words "CREATE TABLE IF NOT EXISTS" ++ qualifiedTokens schema table <+: ts ∨
    words "ALTER TABLE" ++ qualifiedTokens schema table <+: ts

/-- Tokens in which a column is named a primary key. -/
inductive NamesKey (column : String) (ts : List Token) : Prop
  /-- A constraint lists it among its columns. -/
  | constraint {names : List String} (hcolumn : column ∈ names)
      (h : words "PRIMARY KEY" ++ listed (nameTokens names) <:+: ts)
  /-- Its own definition says so. -/
  | definition {type : List Token} (hcomma : .symbol ',' ∉ type)
      (h : .identifier column :: type ++ words "PRIMARY KEY" <:+: ts)

/-- Tokens of a statement that declares a column of a table a primary key. -/
structure DeclaresKey (table column : String) (ts : List Token) : Prop where
  table : IsAboutTable table ts
  column : NamesKey column ts

/-- A text of a script declares a column of a table a primary key. -/
def Declares (script : List String) (table column : String) : Prop :=
  ∃ text ∈ script, ∃ ts, lex text = some ts ∧ DeclaresKey table column ts

/-- A column is a primary key in a database after a script, which had some keys before. -/
def KeyAfter (live : String → String → Prop) (script : List String) (table column : String) : Prop :=
  live table column ∨ Declares script table column

/-- The word that every declaration of a key has. -/
abbrev primary : Token := .word "PRIMARY"

/-- The word is among the tokens that name a key. -/
theorem NamesKey.primary_mem {column : String} {ts : List Token} (h : NamesKey column ts) : primary ∈ ts := by
  have hwords : primary ∈ words "PRIMARY KEY" := List.mem_cons_self
  cases h with
  | constraint _ h => exact h.subset (List.mem_append_left _ hwords)
  | definition _ h => exact h.subset (List.mem_append_right _ hwords)

/-- A group is found in the list that it stands in. -/
theorem isInfix_commas {ts : List Token} {groups : List (List Token)} (h : ts ∈ groups) :
    ts <:+: commas groups := by
  fun_induction commas groups with
  | case1 => cases h
  | case2 us =>
    obtain rfl := List.mem_singleton.mp h
    exact List.infix_rfl
  | case3 us rest _ ih =>
    rcases List.mem_cons.mp h with rfl | h
    · exact (List.prefix_append _ _).isInfix
    · exact (ih h).trans ((List.suffix_cons _ _).isInfix.trans (List.suffix_append _ _).isInfix)

/-- A token of a list is a parenthesis, a comma or a token of one of its groups. -/
theorem mem_listed {t : Token} {groups : List (List Token)} (h : t ∈ listed groups) :
    (∃ c, t = .symbol c) ∨ ∃ ts ∈ groups, t ∈ ts := by
  have hcommas : t ∈ commas groups → (∃ c, t = .symbol c) ∨ ∃ ts ∈ groups, t ∈ ts := by
    clear h
    fun_induction commas groups with
    | case1 => simp
    | case2 us => exact fun hmem => .inr ⟨us, List.mem_singleton_self _, hmem⟩
    | case3 us rest _ ih =>
      intro hmem
      simp only [List.mem_append, List.mem_cons] at hmem
      obtain hus | rfl | hrest := hmem
      · exact .inr ⟨us, List.mem_cons_self, hus⟩
      · exact .inl ⟨_, rfl⟩
      · exact (ih hrest).imp id fun ⟨ts, hts, ht⟩ => ⟨ts, List.mem_cons_of_mem _ hts, ht⟩
  simp only [listed, List.mem_cons, List.mem_append, List.not_mem_nil, or_false] at h
  obtain rfl | h | rfl := h
  · exact .inl ⟨_, rfl⟩
  · exact hcommas h
  · exact .inl ⟨_, rfl⟩

/-- The statement that creates a table declares its key columns. -/
theorem declaresKey_createTable {schema table column : String} {columns : List Column}
    (h : column ∈ keyColumns columns) :
    DeclaresKey table column (words "CREATE TABLE IF NOT EXISTS" ++ qualifiedTokens schema table ++
      listed (columns.map (columnTokens · true) ++ keyTokens columns)) := by
  have hkey : words "PRIMARY KEY" ++ listed (nameTokens (keyColumns columns)) ∈ keyTokens columns := by
    unfold keyTokens
    split
    · next hnone => simp [hnone] at h
    · exact List.mem_singleton_self _
  have hlisted := isInfix_commas (List.mem_append_right (columns.map (columnTokens · true)) hkey)
  refine ⟨⟨schema, .inl (List.prefix_append _ _)⟩, .constraint h (hlisted.trans ?_)⟩
  exact (List.prefix_append _ _).isInfix.trans ((List.suffix_cons _ _).isInfix.trans
    (List.suffix_append _ _).isInfix)

/-- A key that is declared where a table is created is one of this table. -/
theorem DeclaresKey.table_eq {schema table name column : String} {ts : List Token}
    (h : DeclaresKey name column (words "CREATE TABLE IF NOT EXISTS" ++ qualifiedTokens schema table ++ ts)) :
    name = table := by
  have hcreate : words "CREATE TABLE IF NOT EXISTS" =
      [.word "CREATE", .word "TABLE", .word "IF", .word "NOT", .word "EXISTS"] := rfl
  have halter : words "ALTER TABLE" = [.word "ALTER", .word "TABLE"] := rfl
  obtain ⟨schema', ⟨rest, hrest⟩ | ⟨rest, hrest⟩⟩ := h.table
  · simp only [hcreate, qualifiedTokens, List.cons_append, List.nil_append, List.cons.injEq,
      Token.identifier.injEq] at hrest
    exact hrest.2.2.2.2.2.2.2.1
  · simp [hcreate, halter] at hrest

/-! ## The word -/

/-- Words among which it is not. -/
theorem primary_mem_words {text : String} (h : (words text).contains primary = false) :
    primary ∈ words text ↔ False := by
  simpa using h

/-- A word in the type of a column of an entity is one of the type of a scalar kind. -/
theorem mem_words_of_mem_typeTokens {c : Column} (h : Catalog.Operation.IsStored c) {text : String}
    (hmem : .word text ∈ typeTokens c.type) : ∃ kind : FieldKind, .word text ∈ words kind.storage := by
  obtain ⟨kind, htype⟩ | ⟨schema, type, isArray, htype⟩ := h.type
  · rw [htype] at hmem
    exact ⟨kind, hmem⟩
  · rw [htype] at hmem
    cases isArray <;> simp [enumColumn, qualified, typeTokens, qualifiedTokens] at hmem

/-- The word is not in the definition of a column of an entity. -/
theorem primary_not_mem_columnTokens {c : Column} (h : Catalog.Operation.IsStored c) (allowNotNull : Bool) :
    primary ∉ columnTokens c allowNotNull := by
  have htype : primary ∉ typeTokens c.type := by
    intro hmem
    obtain ⟨kind, hmem⟩ := mem_words_of_mem_typeTokens h hmem
    revert hmem
    cases kind <;> decide
  have hnull : primary ∉ if c.saysNotNull allowNotNull then words "NOT NULL" else [] := by
    split <;> decide
  have hdefault : primary ∉ if c.default.isSome then words "DEFAULT NOW" ++ listed [] else [] := by
    split <;> decide
  simp only [columnTokens, List.mem_append, List.mem_singleton, not_or]
  exact ⟨⟨⟨by simp, htype⟩, hnull⟩, hdefault⟩

/-- The word is not in a list of groups without it. -/
theorem primary_not_mem_listed {groups : List (List Token)} (h : ∀ ts ∈ groups, primary ∉ ts) :
    primary ∉ listed groups := by
  intro hmem
  obtain ⟨c, hc⟩ | ⟨ts, hts, hmem⟩ := mem_listed hmem
  · cases hc
  · exact h ts hts hmem

/-- The word is not in a list of names. -/
theorem primary_not_mem_nameTokens (names : List String) : primary ∉ listed (nameTokens names) := by
  refine primary_not_mem_listed fun ts hts => ?_
  obtain ⟨name, -, rfl⟩ := List.mem_map.mp hts
  simp

/-- The word is not in a list of labels. -/
theorem primary_not_mem_labelTokens (labels : List String) :
    primary ∉ listed (labels.map fun label => [Token.string label]) := by
  refine primary_not_mem_listed fun ts hts => ?_
  obtain ⟨label, -, rfl⟩ := List.mem_map.mp hts
  simp

/-- The word is not in the clause for the access method of an index. -/
theorem primary_not_mem_methodTokens {method : Option String}
    (h : ∀ m, method = some m → ∃ known : IndexMethod, m = known.name) : primary ∉ methodTokens method := by
  cases method with
  | none => simp [methodTokens]
  | some m =>
    obtain ⟨known, rfl⟩ := h m rfl
    cases known <;> decide

/-- The word is in no action on delete. -/
theorem primary_not_mem_action {action : String} (h : action ∈ deleteActions) : primary ∉ words action := by
  simp only [deleteActions, List.mem_cons, List.not_mem_nil, or_false] at h
  rcases h with rfl | rfl | rfl | rfl <;> decide

/-- A comment has the word when its object has. -/
theorem primary_mem_commentTokens {object : List Token} {comment : String} :
    primary ∈ commentTokens object comment ↔ primary ∈ object := by
  simp (disch := decide) [commentTokens, primary_mem_words]

end Sql

open Sql (Token IsAboutTable DeclaresKey Declares primary words qualifiedTokens listed columnTokens keyTokens
  Reads)

namespace Catalog

namespace Operation

/-! ## Operations -/

/-- The word is not in the comments on a column. -/
theorem primary_not_mem_columnComments {schema table : String} {c : Sql.Column} {ts : List Token}
    (h : ts ∈ columnCommentTokens schema table c) : primary ∉ ts := by
  obtain ⟨comment, -, rfl⟩ := List.mem_map.mp h
  rw [Sql.primary_mem_commentTokens]
  simp (disch := decide) [qualifiedTokens, Sql.primary_mem_words]

/-- The word stands only in the statement that creates a table. -/
theorem eq_createTable_of_primary {op : Operation} (h : op.Shaped) {ts : List Token} (hts : ts ∈ op.skeleton)
    (hprimary : primary ∈ ts) : ∃ schema table columns comment, op = createTable schema table columns comment ∧
      ts = words "CREATE TABLE IF NOT EXISTS" ++ qualifiedTokens schema table ++
        listed (columns.map (columnTokens · true) ++ keyTokens columns) := by
  cases op with
  | createTable schema table columns comment =>
    simp only [skeleton, List.mem_append, List.mem_cons, List.mem_flatMap, List.mem_map] at hts
    obtain (rfl | ⟨text, -, rfl⟩) | ⟨c, -, hts⟩ := hts
    · exact ⟨schema, table, columns, comment, rfl, rfl⟩
    · simp (disch := decide) [Sql.primary_mem_commentTokens, qualifiedTokens, Sql.primary_mem_words] at hprimary
    · exact absurd hprimary (primary_not_mem_columnComments hts)
  | addColumn schema table column =>
    rcases List.mem_cons.mp hts with rfl | hts
    · have hcolumn := Sql.primary_not_mem_columnTokens h false
      simp (disch := decide) [hcolumn, qualifiedTokens, Sql.primary_mem_words] at hprimary
    · exact absurd hprimary (primary_not_mem_columnComments hts)
  | createEnumType schema type labels enumeration =>
    obtain rfl := List.mem_singleton.mp hts
    simp (disch := decide) [Sql.primary_not_mem_labelTokens, qualifiedTokens, Sql.primary_mem_words] at hprimary
  | createIndex schema table name columns unique method late =>
    obtain rfl := List.mem_singleton.mp hts
    have hmethod := Sql.primary_not_mem_methodTokens h
    have hwords : primary ∉ Sql.indexWords unique := by cases unique <;> decide
    simp (disch := decide) [hmethod, hwords, Sql.primary_not_mem_nameTokens, qualifiedTokens,
      Sql.primary_mem_words] at hprimary
  | addForeignKey schema table constraint column refTable refColumn onDelete =>
    obtain rfl := List.mem_singleton.mp hts
    have haction := Sql.primary_not_mem_action h
    have hname : ∀ name, primary ∉ listed [[Token.identifier name]] := fun name =>
      Sql.primary_not_mem_nameTokens [name]
    simp (disch := decide) [haction, hname, qualifiedTokens, Sql.primary_mem_words] at hprimary
  | createUpdatedTrigger schema table =>
    have hcall : primary ∉ Sql.callTokens := by decide
    rcases List.mem_pair.mp hts with rfl | rfl
    · have hrest : primary ∉ Sql.functionRest := by decide
      simp (disch := decide) [Sql.functionTokens, hrest, Sql.primary_mem_words] at hprimary
    · simp (disch := decide) [Sql.triggerTokens, hcall, qualifiedTokens, Sql.primary_mem_words] at hprimary
  | createSchema schema =>
    obtain rfl := List.mem_singleton.mp hts
    simp (disch := decide) [Sql.primary_mem_words] at hprimary
  | commentOnType schema type comment =>
    obtain rfl := List.mem_singleton.mp hts
    simp (disch := decide) [Sql.primary_mem_commentTokens, qualifiedTokens, Sql.primary_mem_words] at hprimary
  | commentOnConstraint schema table constraint comment =>
    obtain rfl := List.mem_singleton.mp hts
    simp (disch := decide) [Sql.primary_mem_commentTokens, qualifiedTokens, Sql.primary_mem_words] at hprimary
  | blank => cases hts

/-! ## Scripts -/

/-- The lexer finds the skeleton of an operation in its statements. -/
theorem lex_of_render {op : Operation} (h : op.Shaped) (hnames : ∀ p ∈ op.names, p.2 ≠ "")
    {script : List String} (hrender : op.render = .ok script) : script.map Sql.lex = op.skeleton.map some := by
  obtain ⟨statements, hstatements, hreads⟩ := reads_statements h hnames
  obtain ⟨statements', hstatements', hscript⟩ := bind_eq_ok.mp hrender
  obtain rfl : statements = statements' := Except.ok.inj (hstatements.symm.trans hstatements')
  have hempty := h.not_mentions_empty hnames hstatements
  have hlexed := forall₂_comp (mapM_eq_ok_iff.mp hscript).flip hreads
  refine (map_eq_map_of_forall₂ hlexed ?_).symm
  rintro text ts ⟨s, hs, htext, e, hread⟩
  unfold renderStatement at htext
  split at htext
  · next text' hsome =>
    rw [← Except.ok.inj htext]
    exact (Sql.lex_of_read hread (hempty s hs) hsome).symm
  · cases htext

/-- A script of an operation declares what its skeleton declares. -/
theorem declares_iff {op : Operation} (h : op.Shaped) (hnames : ∀ p ∈ op.names, p.2 ≠ "")
    {script : List String} (hrender : op.render = .ok script) {table column : String} :
    Declares script table column ↔ ∃ ts ∈ op.skeleton, DeclaresKey table column ts := by
  have hlex := lex_of_render h hnames hrender
  constructor
  · rintro ⟨text, htext, ts, hts, hkey⟩
    have hmem : some ts ∈ op.skeleton.map some := hlex ▸ List.mem_map.mpr ⟨text, htext, hts⟩
    obtain ⟨us, hus, heq⟩ := List.mem_map.mp hmem
    exact ⟨ts, Option.some.inj heq ▸ hus, hkey⟩
  · rintro ⟨ts, hts, hkey⟩
    have hmem : some ts ∈ script.map Sql.lex := hlex ▸ List.mem_map_of_mem hts
    obtain ⟨text, htext, hlexed⟩ := List.mem_map.mp hmem
    exact ⟨text, htext, ts, hlexed, hkey⟩

end Operation

end Catalog

end SchemaReconcile
