import SchemaReconcile.Proofs.Catalog.Keys
import SchemaReconcile.Proofs.Plan.Ready
import SchemaReconcile.Proofs.Plan.Rendered
import SchemaReconcile.Proofs.Plan.Taken

/-!
# Primary keys of a plan

The primary key of a table comes with the statement that creates the table, and with no other one.  So a plan
that introduces the key column of an entity declares it a primary key exactly when the table of the entity is
created (`declares_iff_free`): where the table is there and lacks the column, the column is added without a key.

`KeyAfter` follows the keys of a database along the scripts of a plan.  At its turn a foreign key refers to a
key column, unless its target is such a table (`keyAfter_iff`).  `plan_primaryKeys` has both statements.
-/

namespace SchemaReconcile.Plan

open Catalog (Operation Snapshot Fact)
open Catalog.Operation (applyAll Ready)
open Settings (Options)
open Sql (Declares KeyAfter)

variable {options : Options} {m : Model} {s : Snapshot} {ops : List Operation}

/-! ## Columns that are introduced -/

/-- An operation introduces a column of a table. -/
def Introduces (op : Operation) (table column : String) : Prop := Fact.column table column ∈ op.effects

/-- A column comes with its table or is added to it. -/
theorem Introduces.cases {op : Operation} {table column : String} (h : Introduces op table column) :
    (∃ schema columns comment, op = .createTable schema table columns comment) ∨
      ∃ schema c, op = .addColumn schema table c ∧ c.name = column := by
  unfold Introduces at h
  cases op with
  | createTable schema t columns comment =>
    left
    simp only [Operation.effects, List.cons_append, List.mem_cons, reduceCtorEq, List.mem_append, List.mem_map,
      Fact.column.injEq, Catalog.Operation.mem_keyEffects, or_self, and_false, or_false, false_or] at h
    obtain ⟨c, -, rfl, -⟩ := h
    exact ⟨schema, columns, comment, rfl⟩
  | addColumn schema t c =>
    right
    simp only [Operation.effects, List.mem_cons, reduceCtorEq, Fact.column.injEq, List.not_mem_nil, or_false,
      false_or] at h
    exact ⟨schema, c, by rw [h.1], h.2.symm⟩
  | _ => simp [Operation.effects, Operation.wants] at h

/-- A plan introduces a column of a table of the model exactly when the snapshot does not have it. -/
theorem introduces_iff (h : m.Sound) (hplan : plan options m s = .ok ops) {e : Entity} (he : e ∈ m.entities)
    {c : CompiledEntity} (hc : e.compile (targetOf options m) = .ok c) {column : Sql.Column}
    (hcolumn : column ∈ c.columns options.timestamps) :
    (∃ op ∈ ops, Introduces op c.table column.name) ↔ s.hasColumn c.table column.name = false := by
  obtain ⟨-, hturn⟩ := eachTurn_of_plan h hplan
  have hafter : (applyAll ops s).Shows (.column c.table column.name) :=
    settle_shows_of_steady ((plan_ok_iff h).mp hplan).2 ((mem_wanted h).mpr (.column he hc hcolumn))
      (List.mem_singleton_self _) (steady_of_lasting trivial)
  rw [shows_applyAll_iff (f := .column c.table column.name) trivial hturn] at hafter
  constructor
  · rintro ⟨op, hop, hintro⟩
    by_contra hlive
    have hshown : s.Shows (.column c.table column.name) := by simpa [Snapshot.Shows] using hlive
    obtain ⟨schema, columns, comment, rfl⟩ | ⟨schema, added, rfl, hname⟩ := hintro.cases
    · have htable : s.hasTable c.table = true := Catalog.Operation.shows_table_of_shows_column hshown
      exact Bool.false_ne_true ((hasTable_eq_false_of_mem hturn hop).symm.trans htable)
    · exact not_wants_of_shows hturn (f := .column c.table column.name) trivial hshown _ hop (by rw [← hname]; rfl)
  · intro hfree
    refine hafter.resolve_left ?_
    simp [Snapshot.Shows, hfree]

/-! ## Keys that are declared -/

/-- The script of an operation that a sound model calls for declares what its skeleton declares. -/
theorem Calls.declares_iff {op : Operation} (hop : Calls options m op) (h : m.Sound) (hoptions : options.Sound)
    {script : List String} (hrender : op.render = .ok script) {table column : String} :
    Declares script table column ↔ ∃ ts ∈ op.skeleton, Sql.DeclaresKey table column ts := by
  obtain ⟨hshaped, horigin⟩ :=
    placed_of_mem_wanted (fun e he => (h.entity e he).key) ((mem_wanted h).mpr hop)
  exact Operation.declares_iff hshaped
    (fun p hp => ne_empty_of_spelled ((horigin p hp).spelled_lineFeed h hoptions)) hrender

/-- Only an operation that creates a table declares a key, which is one of this table. -/
theorem Calls.eq_createTable {op : Operation} (hop : Calls options m op) (h : m.Sound) (hoptions : options.Sound)
    {script : List String} (hrender : op.render = .ok script) {table column : String}
    (hkey : Declares script table column) :
    ∃ schema columns comment, op = .createTable schema table columns comment := by
  obtain ⟨ts, hts, hdeclares⟩ := (hop.declares_iff h hoptions hrender).mp hkey
  have hshaped := (placed_of_mem_wanted (fun e he => (h.entity e he).key) ((mem_wanted h).mpr hop)).shaped
  obtain ⟨schema, table', columns, comment, rfl, rfl⟩ :=
    Operation.eq_createTable_of_primary hshaped hts hdeclares.column.primary_mem
  exact ⟨schema, columns, comment, by rw [hdeclares.table_eq]⟩

/-- The script that creates the table of an entity declares the key column of the entity. -/
theorem declares_createTable (h : m.Sound) (hoptions : options.Sound) {e : Entity} (he : e ∈ m.entities)
    {c : CompiledEntity} (hc : e.compile (targetOf options m) = .ok c) {script : List String}
    (hrender : (Operation.createTable options.schema c.table (c.columns options.timestamps) c.description).render =
      .ok script) : Declares script c.table c.keyColumn := by
  refine ((Calls.table he hc).declares_iff h hoptions hrender).mpr
    ⟨_, List.mem_cons_self, Sql.declaresKey_createTable ?_⟩
  obtain ⟨key, -, hkey⟩ := (h.entity e he).exists_primaryKey hc
  rw [CompiledEntity.keyColumn, hkey]
  exact mem_keyColumns_columns hkey options.timestamps

/-- An operation of a plan that introduces the key column of an entity declares it a primary key exactly when the
entity has no table before. -/
theorem declares_iff_free (h : m.Sound) (hoptions : options.Sound) (hplan : plan options m s = .ok ops)
    {e : Entity} (he : e ∈ m.entities) {c : CompiledEntity} (hc : e.compile (targetOf options m) = .ok c)
    {op : Operation} (hop : op ∈ ops) (hintro : Introduces op c.table c.keyColumn) {script : List String}
    (hrender : op.render = .ok script) :
    Declares script c.table c.keyColumn ↔ s.hasTable c.table = false := by
  obtain ⟨hcalls, hturn⟩ := eachTurn_of_plan h hplan
  have hcall := hcalls op hop
  obtain ⟨schema, columns, comment, rfl⟩ | ⟨schema, added, rfl, -⟩ := hintro.cases
  · have hfree := hasTable_eq_false_of_mem hturn hop
    rw [hcall.eq_table h he hc] at hrender
    exact iff_of_true (declares_createTable h hoptions he hc hrender) hfree
  · refine iff_of_false (fun hkey => ?_) fun hfree => addColumn_not_mem_plan h hplan hfree hop
    obtain ⟨schema', columns, comment, heq⟩ := hcall.eq_createTable h hoptions hrender hkey
    cases heq

/-! ## Columns that foreign keys refer to -/

/-- The script of operations has the text of a script of one of them, and no other text. -/
theorem declares_flatten {run : List Operation} {scripts : List (List String)}
    (hscripts : run.mapM Operation.render = .ok scripts) {table column : String} :
    Declares scripts.flatten table column ↔
      ∃ op ∈ run, ∃ script, op.render = .ok script ∧ Declares script table column := by
  have hrun := mapM_eq_ok_iff.mp hscripts
  constructor
  · rintro ⟨text, htext, hdeclares⟩
    obtain ⟨script, hscript, htext⟩ := List.mem_flatten.mp htext
    obtain ⟨op, hop, hrender⟩ := exists_left_of_forall₂ hrun hscript
    exact ⟨op, hop, script, hrender, text, htext, hdeclares⟩
  · rintro ⟨op, hop, script, hrender, text, htext, hdeclares⟩
    obtain ⟨script', hscript', hrender'⟩ := exists_right_of_forall₂ hrun hop
    obtain rfl : script = script' := Except.ok.inj (hrender.symm.trans hrender')
    exact ⟨text, List.mem_flatten.mpr ⟨script, hscript', htext⟩, hdeclares⟩

/-- The keys that a database has are columns of its tables, and the key columns of a model that it has are keys
of their tables. -/
structure LiveKeys (options : Options) (m : Model) (s : Snapshot) (live : String → String → Prop) : Prop where
  columns : ∀ table column, live table column → s.hasColumn table column = true
  entities : ∀ e ∈ m.entities, ∀ c, e.compile (targetOf options m) = .ok c →
    s.hasColumn c.table c.keyColumn = true → live c.table c.keyColumn

/-- At its turn a foreign key refers to a key column exactly when the table that it refers to was not there before
or had this column. -/
theorem keyAfter_iff (h : m.Sound) (hoptions : options.Sound) (hplan : plan options m s = .ok ops)
    {live : String → String → Prop} (hlive : LiveKeys options m s live) {i : ℕ} (hi : i < ops.length)
    {schema table constraint column refTable refColumn onDelete : String}
    (hkey : ops[i] = .addForeignKey schema table constraint column refTable refColumn onDelete)
    {scripts : List (List String)} (hscripts : (ops.take i).mapM Operation.render = .ok scripts) :
    KeyAfter live scripts.flatten refTable refColumn ↔
      s.hasTable refTable = false ∨ s.hasColumn refTable refColumn = true := by
  obtain ⟨hcalls, hturn⟩ := eachTurn_of_plan h hplan
  have hcall := hcalls _ (List.getElem_mem hi)
  have hready := (eachTurn_ready_of_plan h hplan).getElem i hi
  rw [hkey] at hcall hready
  cases hcall with
  | @key r e t owner target f g hr hjoins =>
    rw [KeyAfter, declares_flatten hscripts]
    constructor
    · rintro (hbefore | ⟨op, hop, script, hrender, hdeclares⟩)
      · exact .inr (hlive.columns _ _ hbefore)
      · have hop := List.mem_of_mem_take hop
        obtain ⟨schema', columns, comment, rfl⟩ := (hcalls op hop).eq_createTable h hoptions hrender hdeclares
        exact .inl (hasTable_eq_false_of_mem hturn hop)
    · intro hcases
      by_cases hcolumn : s.hasColumn target.table target.keyColumn = true
      · exact .inl (hlive.entities t hjoins.targetMem target hjoins.targetCompiled hcolumn)
      · have hfree := hcases.resolve_right hcolumn
        -- the foreign key needs the column at its turn, so an operation in front has introduced it
        have hshown : (applyAll (ops.take i) s).Shows (.column target.table target.keyColumn) :=
          hready.needs _ (by simp [Operation.needs])
        obtain hbefore | ⟨op, hop, hintro⟩ := (shows_applyAll_iff (f := .column _ _) trivial (hturn.take i)).mp hshown
        · exact absurd hbefore hcolumn
        · obtain ⟨script, -, hrender⟩ := exists_right_of_forall₂ (mapM_eq_ok_iff.mp hscripts) hop
          exact .inr ⟨op, hop, script, hrender, (declares_iff_free h hoptions hplan hjoins.targetMem
            hjoins.targetCompiled (List.mem_of_mem_take hop) hintro hrender).mpr hfree⟩

/-! ## Plans -/

/-- The key column of an entity is a column of its table. -/
theorem exists_keyColumn (h : m.Sound) {e : Entity} (he : e ∈ m.entities) {c : CompiledEntity}
    (hc : e.compile (targetOf options m) = .ok c) :
    ∃ column ∈ c.columns options.timestamps, column.name = c.keyColumn :=
  CompiledEntity.exists_column_of_field options.timestamps (Entity.keyColumn_mem (h.entity e he).key hc)

/-- Key columns come with a key where their tables are created, and without one where they are added to tables.
A plan introduces the key column of an entity when a snapshot does not have it, and the operation that introduces
it declares it a primary key exactly when the snapshot does not have the table.  So each foreign key refers to a
key column at its turn, unless it refers to a table that was there without the column. -/
theorem plan_primaryKeys {d : Document} (hextract : extract d = .ok m) {record : List (Value × Value)}
    (hoptions : Settings.readOptions record = .ok options) (hplan : plan options m s = .ok ops) :
    (∀ e ∈ m.entities, ∀ c, e.compile (targetOf options m) = .ok c →
      ((∃ op ∈ ops, Introduces op c.table c.keyColumn) ↔ s.hasColumn c.table c.keyColumn = false) ∧
      ∀ op ∈ ops, Introduces op c.table c.keyColumn → ∀ script, op.render = .ok script →
        (Declares script c.table c.keyColumn ↔ s.hasTable c.table = false)) ∧
    ∀ live, LiveKeys options m s live → ∀ (i : ℕ) (hi : i < ops.length) scripts,
      (ops.take i).mapM Operation.render = .ok scripts →
      ∀ schema table constraint column refTable refColumn onDelete,
        ops[i] = .addForeignKey schema table constraint column refTable refColumn onDelete →
        (KeyAfter live scripts.flatten refTable refColumn ↔
          s.hasTable refTable = false ∨ s.hasColumn refTable refColumn = true) := by
  have hsound := extract_sound hextract
  have hsafe := Settings.sound_of_readOptions hoptions
  refine ⟨fun e he c hc => ⟨?_, fun op hop hintro script hrender => ?_⟩, ?_⟩
  · obtain ⟨column, hcolumn, hname⟩ := exists_keyColumn hsound he hc
    rw [← hname]
    exact introduces_iff hsound hplan he hc hcolumn
  · exact declares_iff_free hsound hsafe hplan he hc hop hintro hrender
  · intro live hlive i hi scripts hscripts schema table constraint column refTable refColumn onDelete hkey
    exact keyAfter_iff hsound hsafe hplan hlive hi hkey hscripts

/-- Posts with their authors. -/
def postDocument : Document where
  types :=
    [ { kind := .object, name := "Author", directives := [{ name := "entity" }]
        fields := [{ name := "id", type := { name := "ID", nullable := false } }] },
      { kind := .object, name := "Post", directives := [{ name := "entity" }]
        fields :=
          [ { name := "id", type := { name := "ID", nullable := false } },
            { name := "author", type := { name := "Author", nullable := false } } ] } ]

/-- The entity of posts. -/
def postEntity : Entity where
  name := "Post"
  fields :=
    [ { name := "id", type := .scalar .id, nullable := false },
      { name := "author", type := .reference "Author", nullable := false } ]

/-- The model of posts with their authors. -/
def postModel : Model where
  entities := [{ name := "Author", fields := [{ name := "id", type := .scalar .id, nullable := false }] }, postEntity]
  relations :=
    [{ source := "Post", target := "Author", kind := .belongsTo, foreignKey := "authorId", fieldName := "author" }]

/-- A schema where the table of authors has no key column. -/
def keyless : Snapshot where
  schema := "public"
  schemaExists := true
  tables := [("author", ["name"])]

/-- The key column of a table. -/
def idColumn : Sql.Column where
  name := "id"
  type := [.fixed "TEXT"]
  nullable := false
  primaryKey := true

/-- The operation that adds the column to the table of authors. -/
def addAuthorId : Operation := .addColumn "public" "author" idColumn

/-- The operation that creates the table of posts. -/
def createPost : Operation :=
  .createTable "public" "post" [idColumn, { name := "author_id", type := [.fixed "TEXT"], nullable := false }] none

/-- The operation that lets posts refer to the column. -/
def addPostAuthor : Operation :=
  .addForeignKey "public" "post" "post_author_id_fkey" "author_id" "author" "id" "CASCADE"

/-- The record of options without timestamps. -/
def withoutTimestamps : List (Value × Value) := [(.text "timestamp_columns", .bool false)]

/-- The model is that of the document. -/
theorem extract_postDocument : extract postDocument = .ok postModel := eq_ok_of_toOption (by decide +kernel)

/-- The record gives options without timestamps. -/
theorem readOptions_withoutTimestamps : Settings.readOptions withoutTimestamps = .ok { timestamps := false } := rfl

/-- There is a plan. -/
theorem plan_postModel : plan { timestamps := false } postModel keyless = .ok [addAuthorId, createPost, addPostAuthor] :=
  eq_ok_of_toOption (by decide +kernel)

/-- The database has no key in this schema. -/
theorem liveKeys_keyless : LiveKeys { timestamps := false } postModel keyless fun _ _ => False where
  columns _ _ h := h.elim
  entities := by
    intro e he c hc hcolumn
    have hnone : ∀ column ∈ ["id", "author_id"], ∀ table ∈ ["author", "post"],
        keyless.hasColumn table column = false := by decide
    have hnames : ∀ e ∈ postModel.entities, e.tableName ∈ ["author", "post"] ∧
        ∀ column ∈ e.fields.map EntityField.columnName, column ∈ ["id", "author_id"] := by decide +kernel
    have hkey := Entity.keyColumn_mem ((extract_sound extract_postDocument).entity e he).key hc
    rw [Entity.fieldColumns_eq hc] at hkey
    rw [hnone _ ((hnames e he).2 _ hkey) _ ((Entity.compile_ok hc).2.1 ▸ (hnames e he).1)] at hcolumn
    cases hcolumn

/-- The compiled posts. -/
def compiledPost : CompiledEntity :=
  (postEntity.compile (targetOf { timestamps := false } postModel)).toOption.getD default

/-- The table of posts comes with its key. -/
theorem plan_primaryKeys_keyless : Settings.readOptions withoutTimestamps = .ok { timestamps := false } ∧
    LiveKeys { timestamps := false } postModel keyless (fun _ _ => False) ∧
    Introduces createPost "post" "id" ∧
    ∃ script, createPost.render = .ok script ∧ Declares script "post" "id" := by
  have hintro : Introduces createPost "post" "id" := by
    unfold Introduces
    decide +kernel
  have hrender : createPost.render = .ok (createPost.render.toOption.getD []) :=
    eq_ok_of_toOption (by decide +kernel)
  have he : postEntity ∈ postModel.entities := List.mem_cons_of_mem _ (List.mem_singleton_self _)
  have hc : postEntity.compile (targetOf { timestamps := false } postModel) = .ok compiledPost :=
    eq_ok_of_toOption (by decide +kernel)
  have htable : compiledPost.table = "post" := by decide +kernel
  have hkey : compiledPost.keyColumn = "id" := by decide +kernel
  have hdeclares := ((plan_primaryKeys extract_postDocument readOptions_withoutTimestamps plan_postModel).1
    _ he _ hc).2 createPost (by decide) (by rwa [htable, hkey]) _ hrender
  rw [htable, hkey] at hdeclares
  exact ⟨readOptions_withoutTimestamps, liveKeys_keyless, hintro, _, hrender, hdeclares.mpr (by decide)⟩

/-- A key column that is added to a table is no key, and a foreign key refers to it. -/
theorem added_key_not_declared :
    extract postDocument = .ok postModel ∧
    plan { timestamps := false } postModel keyless = .ok [addAuthorId, createPost, addPostAuthor] ∧
    LiveKeys { timestamps := false } postModel keyless (fun _ _ => False) ∧
    ∃ scripts, [addAuthorId, createPost].mapM Operation.render = .ok scripts ∧
      scripts.head? = some ["ALTER TABLE \"public\".\"author\" ADD COLUMN IF NOT EXISTS \"id\" TEXT"] ∧
      ¬ KeyAfter (fun _ _ => False) scripts.flatten "author" "id" := by
  have hscripts : [addAuthorId, createPost].mapM Operation.render =
      .ok (([addAuthorId, createPost].mapM Operation.render).toOption.getD []) :=
    eq_ok_of_toOption (by decide +kernel)
  refine ⟨extract_postDocument, plan_postModel, liveKeys_keyless, _, hscripts, by decide +kernel, ?_⟩
  have hkey := keyAfter_iff (extract_sound extract_postDocument) (Settings.sound_of_readOptions
    readOptions_withoutTimestamps) plan_postModel liveKeys_keyless (i := 2) (by decide) rfl hscripts
  exact hkey.not.mpr (by decide)

end SchemaReconcile.Plan
