import SchemaReconcile.Proofs.Plan.Complete
import SchemaReconcile.Proofs.Plan.Refusal

/-!
# Indexes of a plan

The names of indexes are shared by the whole schema, and primary keys use them too.  An index is left out of a
plan when its name is taken, whatever has the name.  So a name goes to the first operation that uses it
(`exists_taken_iff`), and a plan for an empty schema creates an index exactly when some name is used first for
an index of this form (`plan_indexes`).

The names join the table and the columns by underscores, and they say nothing of the access method.  Two indexes
may therefore share a name: of tables of which one name continues in a column of the other, or of one table with
two access methods.  The later one is lost then, and with it the uniqueness of a one-to-one relation.
-/

namespace SchemaReconcile

namespace Catalog

/-- What an index is, but for its name: the columns of a table in their order, whether they are unique, and the
access method. -/
structure IndexForm where
  table : String
  columns : List String
  unique : Bool
  method : Option String
  deriving DecidableEq, Repr

/-- What a name among the indexes of a schema is used for. -/
inductive IndexUse where
  | primaryKey
  | index (form : IndexForm)
  deriving DecidableEq, Repr

/-- The name that an operation uses among the indexes, and what for. -/
def Operation.indexUse? : Operation → Option (String × IndexUse)
  | createTable _ table columns _ =>
    if (Sql.keyColumns columns).isEmpty then none
    else some (Naming.primaryKeyName table, .primaryKey)
  | createIndex _ table name columns unique method _ =>
    some (name, .index ⟨table, columns, unique, method⟩)
  | _ => none

/-- Operations create an index of a form in a schema. -/
def Creates (schema : String) (ops : List Operation) (form : IndexForm) : Prop :=
  ∃ name late, Operation.createIndex schema form.table name form.columns form.unique form.method late ∈ ops

end Catalog

/-! ## The names that a model uses -/

open Catalog (IndexForm IndexUse)

/-- The columns of an index of an entity. -/
def Entity.indexColumns (e : Entity) (spec : IndexSpec) : List String :=
  spec.fields.filterMap fun name => (e.field? name).map EntityField.columnName

/-- What a declared index is. -/
def Entity.indexForm (e : Entity) (spec : IndexSpec) : IndexForm where
  table := e.tableName
  columns := e.indexColumns spec
  unique := Plan.isUnique spec
  method := spec.method.map IndexMethod.name

/-- The names that an entity uses: that of its primary key, and those of its indexes. -/
def Entity.indexUses (e : Entity) : List (String × IndexUse) :=
  (Naming.primaryKeyName e.tableName, .primaryKey) :: e.indexes.map fun spec =>
    (Naming.indexName e.tableName (e.indexColumns spec) (Naming.indexLead (Plan.isUnique spec)),
      .index (e.indexForm spec))

/-- The index that keeps the key of a relation unique. -/
def Relation.keyForm (r : Relation) : IndexForm where
  table := Naming.snakeCase r.keyOwner
  columns := [Plan.keyColumnOf r]
  unique := true
  method := none

/-- The name that a one-to-one relation uses. -/
def Relation.indexUse? (r : Relation) : Option (String × IndexUse) :=
  if r.kind = .hasOne then
    some (Naming.uniqueIndex (Naming.snakeCase r.keyOwner) (Plan.keyColumnOf r), .index r.keyForm)
  else none

/-- The names that a model uses among the indexes, in the order in which they are asked for. -/
def Model.indexUses (m : Model) : List (String × IndexUse) :=
  m.entities.flatMap Entity.indexUses ++ m.relations.filterMap Relation.indexUse?

/-- A declared index uses a name. -/
theorem Model.exists_use_of_index {m : Model} {e : Entity} (he : e ∈ m.entities) {spec : IndexSpec}
    (hspec : spec ∈ e.indexes) : ∃ name, (name, .index (e.indexForm spec)) ∈ m.indexUses :=
  ⟨_, List.mem_append_left _ (List.mem_flatMap.mpr
    ⟨e, he, List.mem_cons_of_mem _ (List.mem_map.mpr ⟨spec, hspec, rfl⟩)⟩)⟩

/-- A one-to-one relation uses a name. -/
theorem Model.exists_use_of_relation {m : Model} {r : Relation} (hr : r ∈ m.relations)
    (hkind : r.kind = .hasOne) : ∃ name, (name, .index r.keyForm) ∈ m.indexUses :=
  ⟨_, List.mem_append_right _ (List.mem_filterMap.mpr
    ⟨r, hr, by rw [Relation.indexUse?, if_pos hkind]⟩)⟩

namespace Plan

open Catalog (Operation Snapshot Fact Creates)
open Catalog.Operation (shows_apply pending_iff)
open Settings (Options)

variable {options : Options} {m : Model} {s : Snapshot} {ops taken : List Operation}

/-! ## A name goes to its first use -/

/-- An operation makes an index name taken when it uses it. -/
theorem index_mem_effects {op : Operation} {name : String} :
    Fact.index name ∈ op.effects ↔ ∃ use, op.indexUse? = some (name, use) := by
  cases op with
  | createTable schema table columns comment =>
    cases hkey : (Sql.keyColumns columns).isEmpty <;>
      simp [Operation.effects, Operation.indexUse?, Catalog.Operation.mem_keyEffects, hkey, eq_comm]
  | createIndex schema table n columns unique method late =>
    simp [Operation.effects, Operation.wants, Operation.indexUse?, eq_comm]
  | _ => simp [Operation.effects, Operation.wants, Operation.indexUse?]

/-- An operation uses a name for an index of a form when it creates this index. -/
theorem indexUse?_eq_index {op : Operation} {name : String} {form : IndexForm} :
    op.indexUse? = some (name, .index form) ↔ ∃ schema late,
      op = .createIndex schema form.table name form.columns form.unique form.method late := by
  constructor
  · intro h
    cases op with
    | createIndex schema table n columns unique method late =>
      obtain ⟨rfl, hform⟩ := Prod.mk.inj (Option.some.inj h)
      obtain rfl := IndexUse.index.inj hform
      exact ⟨schema, late, rfl⟩
    | createTable schema table columns comment => simp [Operation.indexUse?] at h
    | _ => cases h
  · rintro ⟨schema, late, rfl⟩
    rfl

/-- An operation does not make the table that a later one is for. -/
def TablesApart (a b : Operation) : Prop :=
  ∀ table, Fact.table table ∈ b.wants → Fact.table table ∉ a.effects

/-- The tables that operations are for are not there yet, neither in a snapshot nor by an operation before. -/
structure TablesFresh (ops : List Operation) (s : Snapshot) : Prop where
  unshown : ∀ op ∈ ops, ∀ table, Fact.table table ∈ op.wants → ¬ s.Shows (.table table)
  apart : ops.Pairwise TablesApart

/-- Tables are fresh for the operations after one that was taken. -/
theorem TablesFresh.after_taken {op : Operation} {rest : List Operation} (h : TablesFresh (op :: rest) s)
    (hpending : op.pending s = true) : TablesFresh rest (op.apply s) := by
  obtain ⟨hfirst, hrest⟩ := List.pairwise_cons.mp h.apart
  refine ⟨fun b hb table htable hshown => ?_, hrest⟩
  rcases (shows_apply _ hpending).mp hshown with ⟨hbefore, -⟩ | heffect
  · exact h.unshown b (List.mem_cons_of_mem _ hb) table htable hbefore
  · exact hfirst b hb table htable heffect

/-- Tables are fresh for the operations after one that was left out. -/
theorem TablesFresh.after_skipped {op : Operation} {rest : List Operation} (h : TablesFresh (op :: rest) s) :
    TablesFresh rest s :=
  ⟨fun b hb => h.unshown b (List.mem_cons_of_mem _ hb), (List.pairwise_cons.mp h.apart).2⟩

/-- An operation that is left out where tables are fresh uses no name that is free. -/
theorem shows_of_skipped {op : Operation} {rest : List Operation} (h : TablesFresh (op :: rest) s)
    (hpending : op.pending s = false) {name : String} {use : IndexUse}
    (huse : op.indexUse? = some (name, use)) : s.Shows (.index name) := by
  have hfirst : ¬ ∀ f ∈ op.wants.head?, ¬ s.Shows f := by
    rw [← pending_iff, hpending]
    exact Bool.false_ne_true
  cases op with
  | createIndex schema table n columns unique method late =>
    obtain ⟨rfl, -⟩ := Prod.mk.inj (Option.some.inj huse)
    simpa [Operation.wants] using hfirst
  | createTable schema table columns comment =>
    have hfresh := h.unshown _ List.mem_cons_self table (List.mem_singleton_self _)
    exact absurd (by simpa [Operation.wants] using hfresh) hfirst
  | _ => cases huse

/-- Where the first operation is taken, a name goes to it if it uses the name, and else to a later one. -/
theorem first_use_taken {op : Operation} {rest : List Operation} (hpending : op.pending s = true)
    {name : String} {form : IndexForm} :
    (op.indexUse? = some (name, .index form) ∨ ¬ (op.apply s).Shows (.index name) ∧
        (rest.filterMap Operation.indexUse?).lookup name = some (.index form)) ↔
      ¬ s.Shows (.index name) ∧
        ((op :: rest).filterMap Operation.indexUse?).lookup name = some (.index form) := by
  have hshows : (op.apply s).Shows (.index name) ↔
      s.Shows (.index name) ∨ ∃ use, op.indexUse? = some (name, use) := by
    rw [shows_apply _ hpending, index_mem_effects]
    simp [Catalog.Operation.not_overwrites_of_lasting (f := .index name) trivial]
  cases huse : op.indexUse? with
  | none =>
    rw [List.filterMap_cons_none huse, hshows]
    simp [huse]
  | some p =>
    obtain ⟨n, use⟩ := p
    rw [List.filterMap_cons_some huse, Catalog.lookup_entry, hshows]
    by_cases hn : name = n
    · subst hn
      -- the name was free if the operation creates an index, since that is when it is pending
      have hfree : use = .index form → ¬ s.Shows (.index name) := by
        rintro rfl
        obtain ⟨schema, late, rfl⟩ := indexUse?_eq_index.mp huse
        exact pending_iff.mp hpending _ rfl
      simpa [huse] using hfree
    · simp [huse, hn, Ne.symm hn]

/-- Where the first operation is left out, a name that is free goes to a later one. -/
theorem first_use_skipped {op : Operation} {rest : List Operation} (h : TablesFresh (op :: rest) s)
    (hpending : op.pending s = false) {name : String} (hfree : ¬ s.Shows (.index name)) :
    ((op :: rest).filterMap Operation.indexUse?).lookup name =
      (rest.filterMap Operation.indexUse?).lookup name := by
  cases huse : op.indexUse? with
  | none => rw [List.filterMap_cons_none huse]
  | some p =>
    obtain ⟨n, use⟩ := p
    have hne : name ≠ n := by
      rintro rfl
      exact hfree (shows_of_skipped h hpending huse)
    rw [List.filterMap_cons_some huse, Catalog.lookup_entry, if_neg (by simpa using hne)]

/-- A name goes to its first use: an index is created under a name exactly when the name is free and the first
operation that uses it is one that creates this index. -/
theorem exists_taken_iff (h : settle ops s = ⟨taken, none⟩) (hfresh : TablesFresh ops s) {name : String}
    {form : IndexForm} :
    (∃ op ∈ taken, op.indexUse? = some (name, .index form)) ↔
      ¬ s.Shows (.index name) ∧
        (ops.filterMap Operation.indexUse?).lookup name = some (.index form) := by
  induction ops generalizing s taken with
  | nil =>
    obtain rfl : [] = taken := (Progress.mk.inj h).1
    simp
  | cons op rest ih =>
    obtain ⟨-, ⟨hpending, later, rfl, hlater⟩ | ⟨hpending, hskip⟩⟩ := settle_cons_eq h
    · rw [List.exists_mem_cons_iff, ih hlater (hfresh.after_taken hpending)]
      exact first_use_taken hpending
    · rw [ih hskip hfresh.after_skipped]
      refine and_congr_right fun hfree => ?_
      rw [first_use_skipped hfresh hpending hfree]

/-! ## Fresh tables -/

/-- Only an operation of the second phase makes a table. -/
theorem phase_of_table_mem_effects {op : Operation} {table : String}
    (h : Fact.table table ∈ op.effects) : op.phase = .tables := by
  cases op <;> simp_all [Operation.effects, Operation.wants, Operation.phase]

/-- The operations of an entity make its own table, and only the first of them is for it. -/
theorem table_of_mem_entityOperations {e : Entity} {c : CompiledEntity} {op : Operation}
    (h : op ∈ entityOperations options e c) {table : String} (htable : Fact.table table ∈ op.effects) :
    table = c.table := by
  obtain rfl | ⟨column, -, rfl⟩ | ⟨spec, -, rfl⟩ | ⟨-, rfl⟩ := mem_entityOperations.mp h
  · simpa [Operation.effects, Catalog.Operation.mem_keyEffects] using htable
  · simpa [Operation.effects] using htable
  · simp [Operation.effects, Operation.wants, indexOperation] at htable
  · simp [Operation.effects, Operation.wants] at htable

/-- The operations of an entity do not make its table before they create it. -/
theorem pairwise_entityOperations (options : Options) (e : Entity) (c : CompiledEntity) :
    (entityOperations options e c).Pairwise TablesApart := by
  have hlater : ∀ b ∈ (c.columns options.timestamps).map (Operation.addColumn options.schema c.table) ++
      e.indexes.map (indexOperation options.schema c) ++ triggerOperations options c,
      ∀ table, Fact.table table ∉ b.wants := by
    intro b hb table
    simp only [List.mem_append, List.mem_map, triggerOperations, List.mem_ite_nil_right,
      List.mem_singleton] at hb
    obtain (⟨column, -, rfl⟩ | ⟨spec, -, rfl⟩) | ⟨-, rfl⟩ := hb <;>
      simp [Operation.wants, indexOperation]
  rw [entityOperations, tableOperations, List.cons_append, List.cons_append, List.pairwise_cons]
  exact ⟨fun b hb table htable => absurd htable (hlater b hb table),
    List.pairwise_of_forall_mem_list fun a _ b hb table htable => absurd htable (hlater b hb table)⟩

/-- The operations of the entities of a sound model make each table once. -/
theorem pairwise_tables (h : m.Sound) : (outlineOf options m).tables.Pairwise TablesApart := by
  refine List.pairwise_flatMap.mpr ⟨?_, ?_⟩
  · intro e he
    obtain ⟨c, -, hof⟩ := compiledOf_of_sound h options he
    rw [hof]
    exact pairwise_entityOperations options e c
  · refine (List.pairwise_map.mp h.tables).imp_of_mem ?_
    intro e e' he he' hne a ha b hb table hwants heffect
    obtain ⟨c, hc, hof⟩ := compiledOf_of_sound h options he
    obtain ⟨c', hc', hof'⟩ := compiledOf_of_sound h options he'
    rw [hof] at ha
    rw [hof'] at hb
    have htable := table_of_mem_entityOperations ha heffect
    have htable' := table_of_mem_entityOperations hb (mem_effects_of_mem_wants hwants)
    rw [(Entity.compile_ok hc).2.1] at htable
    rw [(Entity.compile_ok hc').2.1] at htable'
    exact hne (htable.symm.trans htable')

/-- The operations of the relations of a sound model are for no table. -/
theorem table_not_mem_relations (h : m.Sound) {op : Operation}
    (hop : op ∈ (outlineOf options m).relations.map RelationPart.key ++
      (outlineOf options m).relations.flatMap RelationPart.late) (table : String) :
    Fact.table table ∉ op.wants := by
  intro htable
  rcases List.mem_append.mp hop with hop | hop
  · obtain ⟨part, hpart, rfl⟩ := List.mem_map.mp hop
    obtain ⟨r, -, e, t, owner, target, f, g, -, rfl⟩ := (mem_outline_relations h).mp hpart
    simp [Operation.wants, relationPart] at htable
  · obtain ⟨part, hpart, hop⟩ := List.mem_flatMap.mp hop
    have hsound := outline_sound options m (compiledEntities options m)
    have hphase := (hsound.relations part hpart).deferred op hop
    rw [phase_of_table_mem_effects (mem_effects_of_mem_wants htable)] at hphase
    cases hphase

/-- The tables of a sound model are fresh for its operations in a schema that does not exist. -/
theorem tablesFresh_wanted (h : m.Sound) : TablesFresh (wanted options m) (.empty options.schema) := by
  have htypes : ∀ a ∈ (outlineOf options m).types, ∀ table, Fact.table table ∉ a.effects := by
    intro a ha table heffect
    have hphase := (outline_sound options m (compiledEntities options m)).types a ha
    rw [phase_of_table_mem_effects heffect] at hphase
    cases hphase
  refine ⟨fun op _ table _ => by simp [Snapshot.Shows, Snapshot.hasTable, Snapshot.columns?,
    Snapshot.empty], ?_⟩
  refine List.pairwise_append.mpr ⟨?_, List.pairwise_append.mpr ⟨pairwise_tables h, ?_, ?_⟩, ?_⟩
  · exact List.pairwise_of_forall_mem_list fun a ha b _ table _ => htypes a ha table
  · exact List.pairwise_of_forall_mem_list fun a _ b hb table hwants =>
      absurd hwants (table_not_mem_relations h hb table)
  · exact fun a _ b hb table hwants => absurd hwants (table_not_mem_relations h hb table)
  · exact fun a ha b _ table _ => htypes a ha table

/-! ## The names that operations use -/

/-- The columns of an index of a compiled entity are those of the index of the entity. -/
theorem indexedColumns_eq {e : Entity} {target : CompileTarget} {c : CompiledEntity}
    (hc : e.compile target = .ok c) (spec : IndexSpec) :
    indexedColumns c spec = e.indexColumns spec :=
  List.filterMap_congr fun name _ => Entity.column?_eq hc name

/-- The primary key of a compiled entity is a key column of its table. -/
theorem mem_keyColumns_columns {c : CompiledEntity} {key : CompiledField} (h : c.primaryKey? = some key)
    (timestamps : Bool) : key.column ∈ Sql.keyColumns (c.columns timestamps) := by
  have hprimary : key.isPrimaryKey = true := List.find?_some h
  exact List.mem_map.mpr ⟨key.toColumn, List.mem_filter.mpr ⟨List.mem_append_left _
    (List.mem_map_of_mem (List.mem_of_find?_eq_some h)), hprimary⟩, rfl⟩

/-- The columns of a compiled entity that has a primary key have a key column. -/
theorem keyColumns_columns {c : CompiledEntity} {key : CompiledField} (h : c.primaryKey? = some key)
    (timestamps : Bool) : (Sql.keyColumns (c.columns timestamps)).isEmpty = false := by
  rw [List.isEmpty_eq_false_iff]
  exact List.ne_nil_of_mem (mem_keyColumns_columns h timestamps)

/-- The operations of an entity of a sound model use its names. -/
theorem indexUses_entityOperations {e : Entity} {c : CompiledEntity} (h : m.SoundEntity e)
    (hc : e.compile (targetOf options m) = .ok c) :
    (entityOperations options e c).filterMap Operation.indexUse? = e.indexUses := by
  obtain ⟨key, -, hkey⟩ := h.exists_primaryKey hc
  obtain ⟨-, htable, -⟩ := Entity.compile_ok hc
  have htrigger : (triggerOperations options c).filterMap Operation.indexUse? = [] := by
    unfold triggerOperations
    split <;> rfl
  have hcolumns : ((c.columns options.timestamps).map
      (Operation.addColumn options.schema c.table)).filterMap Operation.indexUse? = [] := by
    rw [List.filterMap_map, List.filterMap_eq_nil_iff]
    exact fun column _ => rfl
  have hindexes : (e.indexes.map (indexOperation options.schema c)).filterMap Operation.indexUse? =
      e.indexes.map fun spec => (Naming.indexName e.tableName (e.indexColumns spec)
        (Naming.indexLead (isUnique spec)), .index (e.indexForm spec)) := by
    rw [List.filterMap_map, ← List.filterMap_eq_map]
    refine List.filterMap_congr fun spec _ => ?_
    simp only [Function.comp_apply, indexOperation, declaredIndexName, Operation.indexUse?,
      indexedColumns_eq hc, htable, Entity.indexForm]
  have hcreate : (Operation.createTable options.schema c.table (c.columns options.timestamps)
      c.description).indexUse? = some (Naming.primaryKeyName e.tableName, .primaryKey) := by
    rw [Operation.indexUse?, keyColumns_columns hkey, htable]
    rfl
  rw [entityOperations, tableOperations, List.cons_append, List.cons_append,
    List.filterMap_cons_some hcreate, List.filterMap_append, List.filterMap_append, hcolumns, hindexes,
    htrigger, List.nil_append, List.append_nil, Entity.indexUses]

/-- The deferred operations of a relation of a sound model use its name. -/
theorem indexUses_inverseOperations {r : Relation} {e t : Entity} {owner target : CompiledEntity}
    {f : EntityField} {g : CompiledField} (h : Joins options m r e t owner target f g) (schema : String) :
    (inverseOperations schema owner.table (keyColumnOf r) r).filterMap Operation.indexUse? =
      r.indexUse?.toList := by
  have htable : owner.table = Naming.snakeCase r.keyOwner := by
    rw [(Entity.compile_ok h.ownerCompiled).2.1, Entity.tableName, h.ownerName]
  rw [htable]
  unfold inverseOperations Relation.indexUse?
  cases r.kind <;> rfl

/-- The operations that a sound model calls for use its names, in their order. -/
theorem indexUses_wanted (h : m.Sound) (options : Options) :
    (wanted options m).filterMap Operation.indexUse? = m.indexUses := by
  have htypes : (outlineOf options m).types.filterMap Operation.indexUse? = [] := by
    rw [List.filterMap_eq_nil_iff]
    intro op hop
    rcases List.mem_cons.mp hop with rfl | hop
    · rfl
    · obtain ⟨n, -, hop⟩ := List.mem_flatMap.mp hop
      rcases List.mem_pair.mp hop with rfl | rfl <;> rfl
  have htables : (outlineOf options m).tables.filterMap Operation.indexUse? =
      m.entities.flatMap Entity.indexUses := by
    rw [outlineOf, outline, List.filterMap_flatMap]
    refine List.flatMap_congr fun e he => ?_
    obtain ⟨c, hc, hof⟩ := compiledOf_of_sound h options he
    rw [hof]
    exact indexUses_entityOperations (h.entity e he) hc
  have hkeys : ((outlineOf options m).relations.map RelationPart.key).filterMap Operation.indexUse? =
      [] := by
    rw [List.filterMap_map, List.filterMap_eq_nil_iff]
    intro part hpart
    obtain ⟨r, -, e, t, owner, target, f, g, -, rfl⟩ := (mem_outline_relations h).mp hpart
    rfl
  have hlate : ((outlineOf options m).relations.flatMap RelationPart.late).filterMap
      Operation.indexUse? = m.relations.filterMap Relation.indexUse? := by
    rw [outlineOf, outline, List.filterMap_flatMap, List.filterMap_eq_flatMap_toList,
      List.flatMap_assoc, List.filterMap_eq_flatMap_toList]
    refine List.flatMap_congr fun r hr => ?_
    obtain ⟨e, t, owner, target, f, g, hjoins, hpart⟩ := exists_relationPart h options hr
    rw [hpart, Option.toList_some, List.flatMap_cons, List.flatMap_nil, List.append_nil]
    exact indexUses_inverseOperations hjoins options.schema
  rw [wanted, Outline.sorted, List.filterMap_append, List.filterMap_append, List.filterMap_append,
    htypes, htables, hkeys, hlate, List.nil_append, List.nil_append, Model.indexUses]

/-! ## The indexes of a plan -/

/-- Only indexes of the schema of the options are called for. -/
theorem Calls.schema_of_createIndex {schema table name : String} {columns : List String}
    {unique : Bool} {method : Option String} {late : Bool}
    (h : Calls options m (.createIndex schema table name columns unique method late)) :
    schema = options.schema := by
  generalize hop : Operation.createIndex schema table name columns unique method late = op at h
  cases h <;> cases hop <;> rfl

/-- A plan for a schema that does not exist creates an index exactly when some name is used first for an index of
this form. -/
theorem creates_iff (h : m.Sound) (hplan : plan options m (.empty options.schema) = .ok ops)
    (form : IndexForm) :
    Creates options.schema ops form ↔ ∃ name, m.indexUses.lookup name = some (.index form) := by
  obtain ⟨-, hsettle⟩ := (plan_ok_iff h).mp hplan
  obtain ⟨hcalls, -⟩ := eachTurn_of_plan h hplan
  have hfirst : ∀ name, (∃ op ∈ ops, op.indexUse? = some (name, .index form)) ↔
      m.indexUses.lookup name = some (.index form) := by
    intro name
    rw [exists_taken_iff hsettle (tablesFresh_wanted h), indexUses_wanted h options]
    simp [Snapshot.Shows, Snapshot.hasIndex, Snapshot.empty]
  simp only [← hfirst]
  constructor
  · rintro ⟨name, late, hop⟩
    exact ⟨name, _, hop, rfl⟩
  · rintro ⟨name, op, hop, huse⟩
    obtain ⟨schema, late, rfl⟩ := indexUse?_eq_index.mp huse
    obtain rfl := (hcalls _ hop).schema_of_createIndex
    exact ⟨name, late, hop⟩

/-- Which indexes a plan for a schema that does not exist creates.

There is a plan within the index limit, where the enumerations have types of their own.  A declared index, on the
columns of its fields with its uniqueness and its access method, is created exactly when some name is used first
for an index of this form; and so is a unique index on the key of a one-to-one relation.  Where all uses of a name
are the same, no index is lost. -/
theorem plan_indexes {d : Document} (hextract : extract d = .ok m) (options : Options) :
    ((∀ e ∈ m.entities, ¬ OverLimit options e) →
      (m.enums.map fun n => Naming.enumTypeOf options.schema n.name).Nodup →
        ∃ ops, plan options m (.empty options.schema) = .ok ops) ∧
    ∀ ops, plan options m (.empty options.schema) = .ok ops →
      (∀ e ∈ m.entities, ∀ spec ∈ e.indexes, ∃ c columns,
        e.compile (targetOf options m) = .ok c ∧ indexColumns c spec = .ok columns ∧
        (Creates options.schema ops
            ⟨c.table, columns, isUnique spec, spec.method.map IndexMethod.name⟩ ↔
          ∃ name, m.indexUses.lookup name = some (.index (e.indexForm spec)))) ∧
      (∀ r ∈ m.relations, r.kind = .hasOne → ∃ e ∈ m.entities, e.name = r.keyOwner ∧
        ((∃ method, Creates options.schema ops ⟨e.tableName, [keyColumnOf r], true, method⟩) ↔
          ∃ method name,
            m.indexUses.lookup name = some (.index ⟨e.tableName, [keyColumnOf r], true, method⟩))) ∧
      ((∀ u ∈ m.indexUses, ∀ v ∈ m.indexUses, u.1 = v.1 → u = v) →
        (∀ e ∈ m.entities, ∀ spec ∈ e.indexes, Creates options.schema ops (e.indexForm spec)) ∧
        ∀ r ∈ m.relations, r.kind = .hasOne → Creates options.schema ops r.keyForm) := by
  have hsound := extract_sound hextract
  refine ⟨exists_plan_empty hsound, fun ops hplan => ⟨?_, ?_, ?_⟩⟩
  · intro e he spec hspec
    obtain ⟨c, hc⟩ := (hsound.entity e he).compiles (targetOf options m) rfl
    obtain ⟨-, htable, -⟩ := Entity.compile_ok hc
    refine ⟨c, _, hc, indexColumns_of_sound (hsound.entity e he) hc hspec, ?_⟩
    rw [indexedColumns_eq hc, htable]
    exact creates_iff hsound hplan (e.indexForm spec)
  · intro r hr _
    obtain ⟨⟨e, he, hname, -⟩, -⟩ := hsound.relation r hr
    exact ⟨e, he, hname, exists_congr fun method => creates_iff hsound hplan _⟩
  · intro hsame
    refine ⟨fun e he spec hspec => ?_, fun r hr hkind => ?_⟩
    · obtain ⟨name, hname⟩ := Model.exists_use_of_index he hspec
      exact (creates_iff hsound hplan _).mpr ⟨name, Catalog.lookup_of_mem hsame hname⟩
    · obtain ⟨name, hname⟩ := Model.exists_use_of_relation hr hkind
      exact (creates_iff hsound hplan _).mpr ⟨name, Catalog.lookup_of_mem hsame hname⟩

/-- The plan for authors and profiles keeps the key of the author unique. -/
theorem plan_indexes_profilePlan :
    ∃ r ∈ profileModel.relations, r.kind = .hasOne ∧ Creates "public" profilePlan r.keyForm := by
  refine ⟨⟨"Author", "Profile", .hasOne, "authorId", "profile"⟩, by decide +kernel, rfl, ?_⟩
  obtain ⟨-, -, hall⟩ := (plan_indexes extract_profileDocument {}).2 profilePlan plan_profileModel
  exact (hall (by decide +kernel)).2 _ (by decide +kernel) rfl

/-- Drafts of users and of their posts: the table of users and a column of it are named as the table of posts and
its column, one after the other. -/
def draftDocument : Document where
  types :=
    [ { kind := .object, name := "User", directives := [{ name := "entity" }]
        fields :=
          [ { name := "id", type := { name := "ID", nullable := false } },
            { name := "postDraft", type := { name := "Draft" }
              directives := [{ name := "index", arguments := [(.text "unique", .bool true)] }] } ] },
      { kind := .object, name := "UserPost", directives := [{ name := "entity" }]
        fields :=
          [ { name := "id", type := { name := "ID", nullable := false } },
            { name := "draft", type := { name := "Draft" }
              directives := [{ name := "index", arguments := [(.text "unique", .bool true)] }] } ] },
      { kind := .object, name := "Draft", directives := [{ name := "entity" }]
        fields :=
          [ { name := "id", type := { name := "ID", nullable := false } },
            { name := "user", type := { name := "User" }
              directives := [{ name := "derivedFrom"
                               arguments := [(.text "field", .text "postDraft")] }] },
            { name := "post", type := { name := "UserPost" }
              directives := [{ name := "derivedFrom"
                               arguments := [(.text "field", .text "draft")] }] } ] } ]

/-- The model of drafts. -/
def draftModel : Model := (extract draftDocument).toOption.getD {}

/-- The plan for drafts without timestamps. -/
def draftPlan : List Operation :=
  (plan { timestamps := false } draftModel (.empty "public")).toOption.getD []

/-- The draft of a post is declared unique and is read by a one-to-one relation, but every index of the plan is on
users. -/
theorem draft_without_index :
    extract draftDocument = .ok draftModel ∧
      plan { timestamps := false } draftModel (.empty "public") = .ok draftPlan ∧
      (∃ e ∈ draftModel.entities, ∃ spec ∈ e.indexes,
        e.indexForm spec = ⟨"user_post", ["draft_id"], true, none⟩) ∧
      (∃ r ∈ draftModel.relations, r.kind = .hasOne ∧
        r.keyForm = ⟨"user_post", ["draft_id"], true, none⟩) ∧
      ∀ form, Creates "public" draftPlan form → form.table = "user" := by
  refine ⟨eq_ok_of_toOption (by decide +kernel), eq_ok_of_toOption (by decide +kernel),
    by decide +kernel, by decide +kernel, ?_⟩
  have huses : draftPlan.filterMap Operation.indexUse? =
      [ ("user_pkey", .primaryKey),
        ("idx_unique_user_post_draft_id", .index ⟨"user", ["post_draft_id"], true, none⟩),
        ("user_post_pkey", .primaryKey),
        ("draft_pkey", .primaryKey),
        ("user_post_draft_id_uindex", .index ⟨"user", ["post_draft_id"], true, none⟩) ] := by
    decide +kernel
  rintro form ⟨name, late, hop⟩
  have huse : (name, IndexUse.index form) ∈ draftPlan.filterMap Operation.indexUse? :=
    List.mem_filterMap.mpr ⟨_, hop, rfl⟩
  rw [huses] at huse
  simp only [List.mem_cons, Prod.mk.injEq, reduceCtorEq, and_false, IndexUse.index.injEq, false_or,
    List.not_mem_nil, or_false] at huse
  rcases huse with ⟨-, rfl⟩ | ⟨-, rfl⟩ <;> rfl

end Plan

end SchemaReconcile
