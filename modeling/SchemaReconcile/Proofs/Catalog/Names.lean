import SchemaReconcile.Compile.Basic
import SchemaReconcile.Proofs.Catalog.Fact
import SchemaReconcile.Proofs.Sql.Definition

/-!
# Names in operations

The names that an operation gives and uses, by what they name (`Operation.names`).  Nothing else stands as
an identifier in its statements, as long as its columns have types and defaults without identifiers of their
own (`mem_names_of_mentions`), and whatever it makes true is about one of its names.
-/

namespace SchemaReconcile

namespace Sql

/-- An identifier stands in a statement. -/
def Mentions (s : Statement) (name : String) : Prop := .identifier name ∈ s

section Mentions

variable {name : String} {s : Statement}

@[simp] theorem mentions_nil : ¬ Mentions [] name := List.not_mem_nil

@[simp] theorem mentions_fixed {text : String} :
    Mentions (.fixed text :: s) name ↔ Mentions s name := by
  simp [Mentions]

@[simp] theorem mentions_literal {text : String} :
    Mentions (.literal text :: s) name ↔ Mentions s name := by
  simp [Mentions]

@[simp] theorem mentions_identifier {other : String} :
    Mentions (.identifier other :: s) name ↔ name = other ∨ Mentions s name := by
  simp [Mentions]

@[simp] theorem mentions_append {first second : Statement} :
    Mentions (first ++ second) name ↔ Mentions first name ∨ Mentions second name :=
  List.mem_append

/-- What separated parts mention. -/
@[simp] theorem mentions_separatedBy {separator : String} {parts : List Statement} :
    Mentions (separatedBy separator parts) name ↔ ∃ part ∈ parts, Mentions part name := by
  induction parts using separatedBy.induct with
  | case1 => simp [separatedBy]
  | case2 s => simp [separatedBy]
  | case3 s rest hne ih => simp [separatedBy.eq_3 separator s rest hne, ih]

/-- Separated identifiers mention themselves. -/
@[simp] theorem mentions_identifiers {separator : String} {names : List String} :
    Mentions (identifiers separator names) name ↔ name ∈ names := by
  simp [identifiers]

/-- Two names with a point between them mention both. -/
@[simp] theorem mentions_qualified {first second : String} :
    Mentions (qualified first second) name ↔ name = first ∨ name = second := by
  simp [qualified]

end Mentions

end Sql

namespace Catalog

open Sql (Mentions)

/-- What a name names. -/
inductive NameKind where
  | schema
  | type
  | table
  | column
  | index
  | constraint
  | trigger
  deriving DecidableEq, Repr

/-- The names in the type of a column: those of an enum type and its schema. -/
def typeNames : Sql.Statement → List (NameKind × String)
  | .identifier schema :: .fixed _ :: .identifier type :: _ => [(.schema, schema), (.type, type)]
  | _ => []

/-- The names in the definition of a column. -/
def columnNames (c : Sql.Column) : List (NameKind × String) := (.column, c.name) :: typeNames c.type

namespace Operation

/-- The names in an operation. -/
def names : Operation → List (NameKind × String)
  | createSchema schema => [(.schema, schema)]
  | createEnumType schema type _ _ => [(.schema, schema), (.type, type)]
  | commentOnType schema type _ => [(.schema, schema), (.type, type)]
  | createTable schema table columns _ =>
    (.schema, schema) :: (.table, table) :: columns.flatMap columnNames
  | addColumn schema table column => (.schema, schema) :: (.table, table) :: columnNames column
  | createIndex schema table name columns _ _ _ =>
    (.schema, schema) :: (.table, table) :: (.index, name) :: columns.map (NameKind.column, ·)
  | addForeignKey schema table constraint column refTable refColumn _ =>
    [(.schema, schema), (.table, table), (.constraint, constraint), (.column, column),
      (.table, refTable), (.column, refColumn)]
  | commentOnConstraint schema table constraint _ =>
    [(.schema, schema), (.table, table), (.constraint, constraint)]
  | createUpdatedTrigger schema table =>
    [(.schema, schema), (.table, table), (.trigger, Naming.triggerName table)]
  | blank => []

/-! ## Statements -/

/-- A column mentions no names but its own and those of its type. -/
structure IsRegular (c : Sql.Column) : Prop where
  type : ∀ name, Mentions c.type name → name ∈ (typeNames c.type).map Prod.snd
  default : ∀ d, c.default = some d → ∀ name, ¬ Mentions d name

/-- A column as entities have them: its type is that of a scalar kind or an enum type, and a default is the
time of the statement. -/
structure IsStored (c : Sql.Column) : Prop where
  type : (∃ kind : FieldKind, c.type = [.fixed kind.storage]) ∨
    ∃ schema type isArray, c.type = Sql.enumColumn schema type isArray
  default : ∀ d, c.default = some d → d = [.fixed "NOW()"]

/-- A column as entities have them is regular. -/
theorem IsStored.isRegular {c : Sql.Column} (h : IsStored c) : IsRegular c where
  type name hname := by
    obtain ⟨kind, htype⟩ | ⟨schema, type, isArray, htype⟩ := h.type
    · simp [htype] at hname
    · rw [htype] at hname ⊢
      cases isArray <;> simpa [Sql.enumColumn, typeNames, Sql.qualified] using hname
  default d hd name hname := by
    rw [h.default d hd] at hname
    simp at hname

/-- The columns of an operation are regular, and its index has a name. -/
def Regular : Operation → Prop
  | createTable _ _ columns _ => ∀ c ∈ columns, IsRegular c
  | addColumn _ _ column => IsRegular column
  | createIndex _ _ name _ _ _ _ => name ≠ ""
  | _ => True

/-- The definition of a regular column mentions its names. -/
theorem mem_columnNames_of_mentions {c : Sql.Column} (hc : IsRegular c) {allowNotNull : Bool}
    {name : String} (h : Mentions (c.definition allowNotNull) name) :
    name ∈ (columnNames c).map Prod.snd := by
  have hparts : name = c.name ∨ Mentions c.type name ∨ ∃ d, c.default = some d ∧ Mentions d name := by
    unfold Sql.Column.definition at h
    cases hd : c.default with
    | none => split at h <;> simpa [hd] using h
    | some d => split at h <;> simpa [hd, or_assoc] using h
  rw [columnNames, List.map_cons, List.mem_cons]
  rcases hparts with hname | htype | ⟨d, hd, hdefault⟩
  · exact .inl hname
  · exact .inr (hc.type name htype)
  · exact absurd hdefault (hc.default d hd name)

/-- A comment mentions what its statement mentions. -/
theorem exists_of_mem_comments {comment : Option String} {statement : String → Sql.Statement}
    {s : Sql.Statement} (h : s ∈ comments comment statement) : ∃ c, s = statement c := by
  unfold comments at h
  split at h
  · cases h
  · next c =>
    split at h
    · cases h
    · exact ⟨c, List.mem_singleton.mp h⟩

/-- The comments on columns mention the schema, the table and the columns. -/
theorem mem_of_mentions_columnComments {schema table : String} {c : Sql.Column} {s : Sql.Statement}
    (hs : s ∈ columnComments schema table c) {name : String} (h : Mentions s name) :
    name = schema ∨ name = table ∨ name = c.name := by
  obtain ⟨comment, rfl⟩ := exists_of_mem_comments hs
  simpa [Sql.commentOnColumn, or_assoc] using h

/-- The names of key columns are names of columns. -/
theorem mem_keyColumns {columns : List Sql.Column} {name : String} (h : name ∈ Sql.keyColumns columns) :
    ∃ c ∈ columns, c.name = name := by
  obtain ⟨c, hc, hname⟩ := List.mem_map.mp h
  exact ⟨c, List.mem_of_mem_filter hc, hname⟩

/-- The statement that creates a table mentions the schema, the table and what its columns mention. -/
theorem mem_of_mentions_createTable {schema table : String} {columns : List Sql.Column} {name : String}
    (h : Mentions (Sql.createTable schema table columns) name) :
    name = schema ∨ name = table ∨ ∃ c ∈ columns, Mentions c.definition name := by
  have hparts : (name = schema ∨ name = table) ∨
      ∃ part ∈ columns.map (·.definition) ++ Sql.keyClause columns, Mentions part name := by
    simpa only [Sql.createTable, List.cons_append, Sql.mentions_fixed, Sql.mentions_append,
      Sql.mentions_qualified, Sql.mentions_separatedBy, Sql.mentions_nil, or_false] using h
  rcases hparts with (hname | hname) | ⟨part, hpart, hname⟩
  · exact .inl hname
  · exact .inr (.inl hname)
  · rcases List.mem_append.mp hpart with hpart | hpart
    · obtain ⟨c, hc, rfl⟩ := List.mem_map.mp hpart
      exact .inr (.inr ⟨c, hc, hname⟩)
    · -- the key clause names columns that have definitions of their own
      unfold Sql.keyClause at hpart
      split at hpart
      · cases hpart
      · next names hnames =>
        rw [List.mem_singleton.mp hpart] at hname
        have hkey : name ∈ Sql.keyColumns columns := by simpa using hname
        obtain ⟨c, hc, rfl⟩ := mem_keyColumns hkey
        exact .inr (.inr ⟨c, hc, List.mem_cons_self⟩)

/-- The statement that creates an index mentions the index, the schema, the table and the columns. -/
theorem mem_of_mentions_createIndex {schema table : String} {columns : List String} {index : String}
    {unique : Bool} {method : Option String} {s : Sql.Statement}
    (hs : Sql.createIndex schema table columns index unique method = .ok s) {name : String}
    (h : Mentions s name) : name = index ∨ name = schema ∨ name = table ∨ name ∈ columns := by
  have hmethod : ¬ Mentions (Sql.methodClause method) name := by
    unfold Sql.methodClause
    split
    · simp
    · split <;> simp
  rw [Sql.createIndex_ok hs] at h
  simpa [hmethod, or_assoc] using h

/-- Whatever stands as an identifier in a statement of a regular operation is one of its names. -/
theorem mem_names_of_mentions {op : Operation} (hregular : op.Regular)
    {statements : List Sql.Statement} (hstatements : op.statements = .ok statements)
    {s : Sql.Statement} (hs : s ∈ statements) {name : String} (h : Mentions s name) :
    name ∈ op.names.map Prod.snd := by
  cases op with
  | createSchema schema =>
    obtain rfl := Except.ok.inj hstatements
    rw [List.mem_singleton.mp hs] at h
    simpa [Sql.createSchema, names] using h
  | createEnumType schema type labels enumeration =>
    obtain rfl := Except.ok.inj hstatements
    rw [List.mem_singleton.mp hs] at h
    simpa [Sql.createEnum, names] using h
  | commentOnType schema type comment =>
    obtain rfl := Except.ok.inj hstatements
    rw [List.mem_singleton.mp hs] at h
    simpa [Sql.commentOnType, names] using h
  | createTable schema table columns comment =>
    obtain rfl := Except.ok.inj hstatements
    have hcolumn : ∀ c ∈ columns, name ∈ (columnNames c).map Prod.snd →
        name ∈ (names (createTable schema table columns comment)).map Prod.snd := by
      intro c hc hname
      obtain ⟨p, hp, rfl⟩ := List.mem_map.mp hname
      refine List.mem_map_of_mem (List.mem_cons_of_mem _ (List.mem_cons_of_mem _ ?_))
      exact List.mem_flatMap.mpr ⟨c, hc, hp⟩
    rcases List.mem_cons.mp hs with rfl | hs
    · rcases mem_of_mentions_createTable h with rfl | rfl | ⟨c, hc, hname⟩
      · simp [names]
      · simp [names]
      · exact hcolumn c hc (mem_columnNames_of_mentions (hregular c hc) hname)
    · rcases List.mem_append.mp hs with hs | hs
      · obtain ⟨c, rfl⟩ := exists_of_mem_comments hs
        have hname : name = schema ∨ name = table := by
          simpa [Sql.commentOnTable] using h
        rcases hname with rfl | rfl <;> simp [names]
      · obtain ⟨c, hc, hs⟩ := List.mem_flatMap.mp hs
        rcases mem_of_mentions_columnComments hs h with rfl | rfl | rfl
        · simp [names]
        · simp [names]
        · exact hcolumn c hc (by simp [columnNames])
  | addColumn schema table column =>
    obtain rfl := Except.ok.inj hstatements
    rcases List.mem_cons.mp hs with rfl | hs
    · have hparts : (name = schema ∨ name = table) ∨ Mentions (column.definition false) name := by
        simpa [Sql.addColumn] using h
      rcases hparts with (rfl | rfl) | hname
      · simp [names]
      · simp [names]
      · have hcolumn := mem_columnNames_of_mentions hregular hname
        rw [names, List.map_cons, List.map_cons]
        exact List.mem_cons_of_mem _ (List.mem_cons_of_mem _ hcolumn)
    · rcases mem_of_mentions_columnComments hs h with rfl | rfl | rfl <;> simp [names, columnNames]
  | createIndex schema table index columns unique method late =>
    simp only [Operation.statements, String.isEmpty_iff, if_neg hregular] at hstatements
    split at hstatements
    · next statement hstatement =>
      obtain rfl := Except.ok.inj hstatements
      rw [List.mem_singleton.mp hs] at h
      rcases mem_of_mentions_createIndex hstatement h with rfl | rfl | rfl | hname
      · simp [names]
      · simp [names]
      · simp [names]
      · simp [names, hname]
    · cases hstatements
  | addForeignKey schema table constraint column refTable refColumn onDelete =>
    simp only [Operation.statements] at hstatements
    split at hstatements
    · next statement hstatement =>
      obtain rfl := Except.ok.inj hstatements
      rw [List.mem_singleton.mp hs, (Sql.addForeignKey_eq_some hstatement).2] at h
      have hname : name = schema ∨ name = table ∨ name = constraint ∨ name = column ∨ name = schema ∨
          name = refTable ∨ name = refColumn := by
        simpa [or_assoc] using h
      rcases hname with rfl | rfl | rfl | rfl | rfl | rfl | rfl <;> simp [names]
    · cases hstatements
  | commentOnConstraint schema table constraint comment =>
    obtain rfl := Except.ok.inj hstatements
    rw [List.mem_singleton.mp hs] at h
    have hname : name = constraint ∨ name = schema ∨ name = table := by
      simpa [Sql.commentOnConstraint] using h
    rcases hname with rfl | rfl | rfl <;> simp [names]
  | createUpdatedTrigger schema table =>
    obtain rfl := Except.ok.inj hstatements
    rcases List.mem_pair.mp hs with rfl | rfl
    · have hname : name = schema := by simpa [Sql.updatedAtFunction] using h
      simp [names, hname]
    · have hname : name = Naming.triggerName table ∨ (name = schema ∨ name = table) ∨ name = schema := by
        simpa [Sql.updatedAtTrigger] using h
      rcases hname with rfl | (rfl | rfl) | rfl <;> simp [names]
  | blank => cases hstatements

/-! ## Effects -/

/-- The name that a fact has of an enum type, a table or a column. -/
def factNames : Fact → List (NameKind × String)
  | .enumType type => [(.type, type)]
  | .table table => [(.table, table)]
  | .column _ column => [(.column, column)]
  | _ => []

/-- An operation names the enum type, the table or the column that it makes. -/
theorem mem_names_of_mem_effects {op : Operation} {f : Fact} (h : f ∈ op.effects) :
    factNames f ⊆ op.names := by
  cases op with
  | createTable schema table columns comment =>
    rw [effects, List.cons_append, List.mem_cons, List.mem_append, List.mem_map, mem_keyEffects] at h
    rcases h with rfl | ⟨c, hc, rfl⟩ | ⟨-, rfl | rfl⟩
    · simp [factNames, names]
    · intro p hp
      obtain rfl := List.mem_singleton.mp hp
      refine List.mem_cons_of_mem _ (List.mem_cons_of_mem _ (List.mem_flatMap.mpr ⟨c, hc, ?_⟩))
      exact List.mem_cons_self
    · exact List.nil_subset _
    · exact List.nil_subset _
  | addColumn schema table column =>
    rcases List.mem_pair.mp h with rfl | rfl <;> simp [factNames, names, columnNames]
  | createEnumType schema type labels enumeration =>
    rcases List.mem_pair.mp h with rfl | rfl <;> simp [factNames, names]
  | commentOnConstraint schema table constraint comment =>
    rcases List.mem_pair.mp h with rfl | rfl <;> exact List.nil_subset _
  | blank => cases h
  | _ =>
    rw [List.mem_singleton.mp h]
    exact List.nil_subset _

end Operation

end Catalog

end SchemaReconcile
