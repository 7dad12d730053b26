import SchemaReconcile.Proofs.Plan.Additive

/-!
# Plans and unrelated objects

An operation asks a snapshot about few facts: the first one that it is for, and the labels of its enum type
(`Asks`).  Snapshots that agree on some facts still agree on them after an operation that is pending in both,
since what an operation changes is the same in every snapshot (`AgreeOn.apply`).  So operations are settled
alike against snapshots that agree on all that the operations ask about (`settle_eq_of_agreeOn`).

Whatever the model is, the operations of its agenda ask about the schema, the types of its enumerations, its
tables, its indexes, its foreign keys and its triggers only (`Outlined.isAbout`).  Any other object in the
schema has no influence on a plan, nor on the fault that there is in place of one (`plan_eq_of_alike`).
-/

namespace SchemaReconcile.Plan

open Catalog (Operation Snapshot Fact)
open Catalog.Operation (shows_apply pending_iff)
open Settings (Options)

variable {options : Options} {m : Model} {s t : Snapshot}

/-! ## Agreement on facts -/

/-- Two snapshots agree on facts: each shows such a fact when the other does. -/
def AgreeOn (about : Fact → Prop) (s t : Snapshot) : Prop := ∀ f, about f → (s.Shows f ↔ t.Shows f)

/-- The facts that decide what becomes of an operation: the first one that it is for, and the labels of its
enum type. -/
def Asks : Operation → Fact → Prop
  | .createEnumType _ type _ _, .labels t _ => t = type
  | op, f => f ∈ op.wants.head?

/-- An operation asks about the first fact that it is for. -/
theorem asks_of_wants {op : Operation} {f : Fact} (h : f ∈ op.wants.head?) : Asks op f := by
  cases op with
  | createEnumType schema type labels enumeration =>
    obtain rfl : .enumType type = f := Option.some.inj h
    rfl
  | _ => exact h

namespace AgreeOn

variable {about : Fact → Prop}

/-- Snapshots agree on the same facts after an operation that is pending in both. -/
theorem apply (h : AgreeOn about s t) {op : Operation} (hs : op.pending s = true)
    (ht : op.pending t = true) : AgreeOn about (op.apply s) (op.apply t) := by
  intro f hf
  rw [shows_apply f hs, shows_apply f ht, h f hf]

/-- An operation is pending in both of two snapshots that agree on what it asks about, or in none. -/
theorem pending (h : AgreeOn about s t) {op : Operation} (hasks : ∀ f, Asks op f → about f) :
    op.pending s = op.pending t := by
  rw [Bool.eq_iff_iff, pending_iff, pending_iff]
  refine forall₂_congr fun f hf => ?_
  rw [h f (hasks f (asks_of_wants hf))]

/-- An operation conflicts with both of two snapshots that agree on what it asks about, or with none. -/
theorem conflict? (h : AgreeOn about s t) {op : Operation} (hasks : ∀ f, Asks op f → about f) :
    op.conflict? s = op.conflict? t := by
  cases op with
  | createEnumType schema type labels enumeration =>
    have hlabels : s.labels? type = t.labels? type :=
      Option.ext fun live => h (.labels type live) (hasks _ rfl)
    simp only [Operation.conflict?, hlabels]
  | _ => rfl

end AgreeOn

/-- Operations are settled alike against snapshots that agree on what they ask about. -/
theorem settle_eq_of_agreeOn {about : Fact → Prop} {ops : List Operation}
    (hasks : ∀ op ∈ ops, ∀ f, Asks op f → about f) (h : AgreeOn about s t) :
    settle ops s = settle ops t := by
  induction ops generalizing s t with
  | nil => rfl
  | cons op rest ih =>
    obtain ⟨hop, hrest⟩ := List.forall_mem_cons.mp hasks
    have hpending := h.pending hop
    unfold settle
    rw [h.conflict? hop, ← hpending, ih hrest h]
    cases hs : op.pending s with
    | true => rw [ih hrest (h.apply hs (hpending ▸ hs))]
    | false => rfl

/-! ## The objects of a model -/

/-- A table is that of an entity of a model. -/
def IsTableName (m : Model) (table : String) : Prop := ∃ e ∈ m.entities, table = e.tableName

/-- The columns that the fields of an index have in an entity. -/
def columnNamesOf (e : Entity) (spec : IndexSpec) : List String :=
  spec.fields.filterMap fun name => (e.field? name).map EntityField.columnName

/-- A name is that of an index of a model: one that an entity declares, over the columns of the entity of its
name, or one that keeps the key of a relation to one unique. -/
def IsIndexName (m : Model) (name : String) : Prop :=
  (∃ declared ∈ m.entities, ∃ spec ∈ declared.indexes, ∃ e ∈ m.entities, e.name = declared.name ∧
    name = Naming.indexName e.tableName (columnNamesOf e spec) (Naming.indexLead (isUnique spec))) ∨
  ∃ r ∈ m.relations, r.kind = .hasOne ∧
    name = Naming.uniqueIndex (Naming.snakeCase r.keyOwner) (keyColumnOf r)

/-- A constraint is the foreign key that a relation of a model is about. -/
def IsKeyName (m : Model) (table name : String) : Prop :=
  ∃ r ∈ m.relations, table = Naming.snakeCase r.keyOwner ∧
    name = Naming.foreignKeyConstraint table (keyColumnOf r)

/-- A trigger keeps the time of the last update in the table of an entity of a model. -/
def IsTriggerName (options : Options) (m : Model) (table name : String) : Prop :=
  ∃ e ∈ m.entities, options.timestamps = true ∧ updatedColumn ∉ e.fields.map EntityField.columnName ∧
    table = e.tableName ∧ name = Naming.triggerName table

/-- Two snapshots are alike in all that belongs to a model: the schema, the labels and comments of the types of
its enumerations, its tables with the sets of their columns, its indexes, its foreign keys with their comments,
and its triggers. -/
structure Alike (options : Options) (m : Model) (s t : Snapshot) : Prop where
  schema : s.schemaExists = t.schemaExists
  types : ∀ type, IsEnumType options m type →
    s.labels? type = t.labels? type ∧ s.typeComment? type = t.typeComment? type
  tables : ∀ table, IsTableName m table →
    s.hasTable table = t.hasTable table ∧ ∀ column, s.hasColumn table column = t.hasColumn table column
  indexes : ∀ name, IsIndexName m name → s.hasIndex name = t.hasIndex name
  keys : ∀ table name, IsKeyName m table name → s.hasConstraint table name = t.hasConstraint table name ∧
    s.constraintComment? table name = t.constraintComment? table name
  triggers : ∀ table name, IsTriggerName options m table name →
    s.hasTrigger table name = t.hasTrigger table name

/-- A fact is about an object of a model. -/
def IsAbout (options : Options) (m : Model) : Fact → Prop
  | .schema => True
  | .enumType type => IsEnumType options m type
  | .labels type _ => IsEnumType options m type
  | .typeComment type _ => IsEnumType options m type
  | .table table => IsTableName m table
  | .column table _ => IsTableName m table
  | .index name => IsIndexName m name
  | .constraint table name => IsKeyName m table name
  | .constraintComment table name _ => IsKeyName m table name
  | .trigger table name => IsTriggerName options m table name

/-- Snapshots that are alike in what belongs to a model agree on the facts about it. -/
theorem Alike.agreeOn (h : Alike options m s t) : AgreeOn (IsAbout options m) s t := by
  intro f hf
  cases f with
  | schema => simp only [Snapshot.Shows, h.schema]
  | enumType type => simp only [Snapshot.Shows, (h.types type hf).1]
  | labels type labels => simp only [Snapshot.Shows, (h.types type hf).1]
  | typeComment type comment => simp only [Snapshot.Shows, (h.types type hf).2]
  | table table => simp only [Snapshot.Shows, (h.tables table hf).1]
  | column table column => simp only [Snapshot.Shows, (h.tables table hf).2]
  | index name => simp only [Snapshot.Shows, h.indexes name hf]
  | constraint table name => simp only [Snapshot.Shows, (h.keys table name hf).1]
  | constraintComment table name comment => simp only [Snapshot.Shows, (h.keys table name hf).2]
  | trigger table name => simp only [Snapshot.Shows, h.triggers table name hf]

/-! ## What an agenda asks about -/

/-- The columns of an index in a compiled entity are those in the entity. -/
theorem indexedColumns_eq_columnNamesOf {e : Entity} {c : CompiledEntity}
    (hc : e.compile (targetOf options m) = .ok c) (spec : IndexSpec) :
    indexedColumns c spec = columnNamesOf e spec :=
  List.filterMap_congr fun name _ => Entity.column?_eq hc name

/-- The operations for a model ask about objects of the model. -/
theorem Outlined.isAbout {op : Operation} (h : Outlined options m op) {f : Fact} (hf : Asks op f) :
    IsAbout options m f := by
  cases h with
  | schema =>
    obtain rfl := Option.some.inj hf
    exact trivial
  | enumeration hn hop =>
    rcases List.mem_pair.mp hop with rfl | rfl
    · cases f with
      | labels type labels => exact ⟨_, hn, hf⟩
      | enumType type => exact ⟨_, hn, (Fact.enumType.inj (Option.some.inj hf)).symm⟩
      | _ => cases Option.some.inj hf
    · obtain rfl := Option.some.inj hf
      exact ⟨_, hn, rfl⟩
  | entity hdeclared hc hop =>
    obtain ⟨e, he, hname, hcompile⟩ := exists_of_compiledOf hc
    have htable := (Entity.compile_ok hcompile).2.1
    obtain rfl | ⟨column, -, rfl⟩ | ⟨spec, hspec, rfl⟩ | ⟨hkeeps, rfl⟩ := mem_entityOperations.mp hop
    · obtain rfl := Option.some.inj hf
      exact ⟨e, he, htable⟩
    · obtain rfl := Option.some.inj hf
      exact ⟨e, he, htable⟩
    · obtain rfl := Option.some.inj hf
      refine .inl ⟨_, hdeclared, spec, hspec, e, he, hname, ?_⟩
      rw [declaredIndexName, htable, indexedColumns_eq_columnNamesOf hcompile]
    · obtain rfl := Option.some.inj hf
      obtain ⟨htimestamps, hfree⟩ := Bool.and_eq_true_iff.mp hkeeps
      refine ⟨e, he, htimestamps, ?_, htable, rfl⟩
      simpa [Entity.fieldColumns_eq hcompile] using hfree
  | relation hr howner _ _ hop =>
    have htable := table_of_compiledOf howner
    rcases List.mem_cons.mp hop with rfl | hop
    · obtain rfl := Option.some.inj hf
      exact ⟨_, hr, htable, rfl⟩
    · obtain ⟨-, rfl⟩ | ⟨hkind, rfl⟩ := mem_inverseOperations.mp hop
      · obtain rfl := Option.some.inj hf
        exact ⟨_, hr, htable, rfl⟩
      · obtain rfl := Option.some.inj hf
        exact .inr ⟨_, hr, hkind, by rw [htable]⟩

/-- The steps of an entity want operations for it, up to a fault. -/
theorem mem_entityOperations_of_step {declared : Entity} {c : CompiledEntity} {op : Operation}
    (h : op ∈ operationsOf (entitySteps options declared c).done) :
    op ∈ entityOperations options declared c := by
  have hindexes : ∀ op ∈ operationsOf (Progress.of (indexStep options.schema c) declared.indexes).done,
      op ∈ declared.indexes.map (indexOperation options.schema c) := by
    intro op hop
    obtain ⟨step, hstep, hop⟩ := List.mem_filterMap.mp hop
    obtain ⟨spec, hspec, hstep⟩ := Progress.exists_of_mem_done hstep
    obtain rfl := indexStep_ok hstep
    exact List.mem_map.mpr ⟨spec, hspec, Option.some.inj hop⟩
  unfold entitySteps at h
  dsimp only at h
  unfold entityOperations
  split at h
  · simp only [operationsOf_append, operationsOf_columns, operationsOf_tableSteps] at h
    rcases List.mem_append.mp h with h | h
    · exact List.mem_append_left _ (List.mem_append_left _ h)
    · exact List.mem_append_left _ (List.mem_append_right _ (hindexes op h))
  · simp only [operationsOf_append, operationsOf_columns, operationsOf_tableSteps] at h
    rcases List.mem_append.mp h with h | h
    · rcases List.mem_append.mp h with h | h
      · exact List.mem_append_left _ (List.mem_append_left _ h)
      · exact List.mem_append_left _ (List.mem_append_right _ (hindexes op h))
    · refine List.mem_append_right _ ?_
      unfold triggerOperations
      split at h
      · next hkeeps => rwa [if_pos hkeeps]
      · cases h

/-- The operations of an agenda are those of the parts of the model, whether the agenda has a fault or not. -/
theorem outlined_of_mem_agenda {op : Operation} (hop : op ∈ operationsOf (agenda options m).done) :
    Outlined options m op := by
  obtain ⟨step, hstep, hop⟩ := List.mem_filterMap.mp hop
  obtain ⟨part, hpart, hstep⟩ := Progress.exists_of_mem_join hstep
  have hmem : op ∈ operationsOf part.done := List.mem_filterMap.mpr ⟨step, hstep, hop⟩
  simp only [structureParts, List.mem_cons, List.mem_append, List.mem_map] at hpart
  obtain rfl | rfl | rfl | ⟨declared, hdeclared, rfl⟩ | ⟨r, hr, rfl⟩ := hpart
  · obtain rfl : op = .createSchema options.schema := by simpa using hmem
    exact .schema
  · rw [operationsOf_enumSteps] at hmem
    obtain ⟨n, hn, hmem⟩ := List.mem_flatMap.mp hmem
    exact .enumeration hn hmem
  · simp at hmem
  · split at hmem
    · next c hc => exact .entity hdeclared hc (mem_entityOperations_of_step hmem)
    · cases hmem
  · cases hsteps : relationSteps options.schema (m.compileEntities (targetOf options m)).done r with
    | error fault =>
      rw [hsteps] at hmem
      cases hmem
    | ok steps =>
      rw [hsteps] at hmem
      obtain ⟨part, hpart, hoperations⟩ := relationSteps_ok hsteps
      exact .of_relationPart hr hpart (hoperations ▸ hmem)

/-! ## Plans -/

/-- Unrelated objects never change a plan: for any model, snapshots that are alike in all that belongs to it have
the same plan, with the same operations in the same order, or the same fault. -/
theorem plan_eq_of_alike (h : Alike options m s t) : plan options m s = plan options m t := by
  have hsettle : settle ((agenda options m).done.filterMap Step.operation?) s =
      settle ((agenda options m).done.filterMap Step.operation?) t :=
    settle_eq_of_agreeOn (fun op hop f hf => (outlined_of_mem_agenda hop).isAbout hf) h.agreeOn
  unfold plan
  dsimp only
  rw [hsettle]

/-- A schema with the table of authors. -/
def begun : Snapshot where
  schema := "public"
  schemaExists := true
  tables := [("author", ["id"])]
  indexes := ["author_pkey"]
  constraints := [(("author", "author_pkey"), none)]

/-- The same schema among objects of others: types, tables, indexes, constraints and triggers that no author and
no profile has, also on the table of authors, which has lost its key. -/
def crowded : Snapshot where
  schema := "public"
  schemaExists := true
  enums := [("currency", ["EUR", "USD"])]
  typeComments := [("currency", some "ISO 4217")]
  tables := [("invoice", ["id", "author"]), ("author", ["id"])]
  indexes := ["invoice_pkey", "idx_author_name"]
  constraints := [(("invoice", "profile_author_id_fkey"), some "@omit"), (("author", "author_check"), none)]
  triggers := [("author", "audit"), ("invoice", "trg_author_updated_at")]

/-- The objects of others do not change the plan for authors and profiles, and the plan has something to do. -/
theorem plan_eq_of_alike_crowded : begun ≠ crowded ∧ Alike {} profileModel begun crowded ∧
    plan {} profileModel begun = plan {} profileModel crowded ∧
    ∃ ops, plan {} profileModel crowded = .ok ops ∧ 5 < ops.length := by
  have hcolumns : ∀ e ∈ profileModel.entities, begun.columns? e.tableName = crowded.columns? e.tableName := by
    decide +kernel
  have hindexes : ∀ d ∈ profileModel.entities, ∀ spec ∈ d.indexes, ∀ e ∈ profileModel.entities,
      e.name = d.name → begun.hasIndex (Naming.indexName e.tableName (columnNamesOf e spec)
          (Naming.indexLead (isUnique spec))) =
        crowded.hasIndex (Naming.indexName e.tableName (columnNamesOf e spec)
          (Naming.indexLead (isUnique spec))) := by
    decide +kernel
  have hunique : ∀ r ∈ profileModel.relations, r.kind = .hasOne →
      begun.hasIndex (Naming.uniqueIndex (Naming.snakeCase r.keyOwner) (keyColumnOf r)) =
        crowded.hasIndex (Naming.uniqueIndex (Naming.snakeCase r.keyOwner) (keyColumnOf r)) := by
    decide +kernel
  have hkeys : ∀ r ∈ profileModel.relations, ∀ name,
      name = Naming.foreignKeyConstraint (Naming.snakeCase r.keyOwner) (keyColumnOf r) →
        begun.hasConstraint (Naming.snakeCase r.keyOwner) name =
          crowded.hasConstraint (Naming.snakeCase r.keyOwner) name ∧
        begun.constraintComment? (Naming.snakeCase r.keyOwner) name =
          crowded.constraintComment? (Naming.snakeCase r.keyOwner) name := by
    simp only [forall_eq]
    decide +kernel
  have htriggers : ∀ e ∈ profileModel.entities,
      begun.hasTrigger e.tableName (Naming.triggerName e.tableName) =
        crowded.hasTrigger e.tableName (Naming.triggerName e.tableName) := by
    decide +kernel
  have halike : Alike {} profileModel begun crowded := by
    refine ⟨rfl, ?_, ?_, ?_, ?_, ?_⟩
    · rintro _ ⟨n, hn, rfl⟩
      revert n
      decide +kernel
    · rintro table ⟨e, he, htable⟩
      rw [htable]
      exact ⟨by rw [Snapshot.hasTable, hcolumns e he, Snapshot.hasTable],
        fun column => by rw [Snapshot.hasColumn, hcolumns e he, Snapshot.hasColumn]⟩
    · rintro name (⟨d, hd, spec, hspec, e, he, hsame, hname⟩ | ⟨r, hr, hkind, hname⟩)
      · rw [hname]
        exact hindexes d hd spec hspec e he hsame
      · rw [hname]
        exact hunique r hr hkind
    · rintro table name ⟨r, hr, htable, hname⟩
      rw [htable] at hname ⊢
      exact hkeys r hr name hname
    · rintro table name ⟨e, he, -, -, htable, hname⟩
      rw [hname, htable]
      exact htriggers e he
  have hplan : plan {} profileModel crowded = .ok ((plan {} profileModel crowded).toOption.getD []) :=
    eq_ok_of_toOption (by decide +kernel)
  exact ⟨by decide, halike, plan_eq_of_alike halike, _, hplan, by decide +kernel⟩

end SchemaReconcile.Plan
