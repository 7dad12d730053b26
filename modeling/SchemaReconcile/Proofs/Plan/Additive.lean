import SchemaReconcile.Proofs.Plan.Sound

/-!
# Plans only add

Two operations could take something away: a table or an enum type that is created where one of its name is
there loses what it had.  A plan holds neither, because each of its operations is pending at its turn.  So a
snapshot only grows (`Grows`) along a plan, for any model whatever: one step by `Grows.of_pending`, a run by
`Grows.applyAll`.  What a plan may hold for a model that need not be sound is listed part by part (`Outlined`).

Comments are the exception.  They are set anew, but only on the types of the enumerations of the model
(`IsEnumType`) and on the foreign keys that one of its relations reads backwards (`IsAnnotated`).
-/

namespace SchemaReconcile.Plan

open Catalog (Operation Snapshot)
open Catalog.Operation (applyAll)
open Settings (Options)

/-! ## Growing snapshots -/

/-- A snapshot holds all that another one held.  Only certain types and certain constraints may have other
comments. -/
structure Grows (types : String → Prop) (keys : String → String → Prop) (s s' : Snapshot) : Prop where
  schema : s.schemaExists = true → s'.schemaExists = true
  labels : ∀ type labels, s.labels? type = some labels → s'.labels? type = some labels
  columns : ∀ table columns, s.columns? table = some columns →
    ∃ later, s'.columns? table = some later ∧ columns <+: later
  indexes : ∀ name, s.hasIndex name = true → s'.hasIndex name = true
  constraints : ∀ table name, s.hasConstraint table name = true → s'.hasConstraint table name = true
  triggers : ∀ table name, s.hasTrigger table name = true → s'.hasTrigger table name = true
  typeComments : ∀ type, ¬ types type → s'.typeComment? type = s.typeComment? type
  keyComments : ∀ table name, ¬ keys table name →
    s'.constraintComment? table name = s.constraintComment? table name

/-- An operation comments on certain types and certain constraints only. -/
def CommentsWithin (types : String → Prop) (keys : String → String → Prop) : Operation → Prop
  | .commentOnType _ type _ => types type
  | .commentOnConstraint _ table name _ => keys table name
  | _ => True

variable {types : String → Prop} {keys : String → String → Prop} {s : Snapshot}

/-- A snapshot holds what it holds. -/
theorem Grows.refl (types : String → Prop) (keys : String → String → Prop) (s : Snapshot) :
    Grows types keys s s where
  schema := id
  labels _ _ := id
  columns _ columns h := ⟨columns, h, List.prefix_refl columns⟩
  indexes _ := id
  constraints _ _ := id
  triggers _ _ := id
  typeComments _ _ := rfl
  keyComments _ _ _ := rfl

/-- Snapshots that grow one after another grow from the first to the last. -/
theorem Grows.trans {s' s'' : Snapshot} (h : Grows types keys s s') (h' : Grows types keys s' s'') :
    Grows types keys s s'' where
  schema hs := h'.schema (h.schema hs)
  labels type labels hl := h'.labels type labels (h.labels type labels hl)
  columns table columns hc := by
    obtain ⟨middle, hmiddle, hprefix⟩ := h.columns table columns hc
    obtain ⟨later, hlater, hprefix'⟩ := h'.columns table middle hmiddle
    exact ⟨later, hlater, hprefix.trans hprefix'⟩
  indexes name hn := h'.indexes name (h.indexes name hn)
  constraints table name hn := h'.constraints table name (h.constraints table name hn)
  triggers table name hn := h'.triggers table name (h.triggers table name hn)
  typeComments type hne := (h'.typeComments type hne).trans (h.typeComments type hne)
  keyComments table name hne := (h'.keyComments table name hne).trans (h.keyComments table name hne)

/-! ## One operation -/

/-- A table that was not there comes with its key and takes nothing away. -/
theorem grows_createTable {schema table : String} {columns : List Sql.Column} {comment : Option String}
    (h : s.hasTable table = false) :
    Grows types keys s ((Operation.createTable schema table columns comment).apply s) := by
  have hnone : s.tables.lookup table = none := by simpa [Snapshot.hasTable, Snapshot.columns?] using h
  have hcolumns : ∀ t c, s.columns? t = some c →
      (Catalog.put table (columns.map (·.name)) s.tables).lookup t = some c := by
    intro t c hc
    have hne : t ≠ table := by
      rintro rfl
      rw [Snapshot.columns?, hnone] at hc
      cases hc
    rw [Catalog.lookup_put, if_neg (by simpa using hne)]
    exact hc
  unfold Operation.apply
  dsimp only
  split
  · exact { Grows.refl types keys s with columns := fun t c hc => ⟨c, hcolumns t c hc, List.prefix_refl c⟩ }
  · refine { Grows.refl types keys s with
      columns := fun t c hc => ⟨c, hcolumns t c hc, List.prefix_refl c⟩
      indexes := ?_, constraints := ?_, keyComments := ?_ }
    · intro name hname
      simp only [Snapshot.hasIndex, List.contains_eq_mem, decide_eq_true_eq] at hname ⊢
      exact (Catalog.mem_addMember ..).mpr (.inr hname)
    · intro t name hname
      simp only [Snapshot.hasConstraint, Catalog.lookup_putNew] at hname ⊢
      split
      · rfl
      · exact hname
    · intro t name _
      simp only [Snapshot.constraintComment?, Catalog.lookup_putNew]
      split
      · next hkey =>
        rw [beq_iff_eq] at hkey
        rw [hkey]
        cases s.constraints.lookup (table, Naming.primaryKeyName table) <;> rfl
      · rfl

/-- A pending operation takes nothing away. -/
theorem Grows.of_pending {op : Operation} (hpending : op.pending s = true)
    (hwithin : CommentsWithin types keys op) : Grows types keys s (op.apply s) := by
  cases op with
  | createSchema schema => exact { Grows.refl types keys s with schema := fun _ => rfl }
  | createEnumType schema type labels enumeration =>
    refine { Grows.refl types keys s with labels := ?_ }
    intro t l hl
    -- the type of the operation has no labels yet, so it is another one
    have hne : t ≠ type := by
      rintro rfl
      simp [Operation.pending, hl] at hpending
    simpa [Operation.apply, Snapshot.labels?, Catalog.lookup_put, hne] using hl
  | commentOnType schema type comment =>
    refine { Grows.refl types keys s with typeComments := ?_ }
    intro t ht
    have hne : t ≠ type := by
      rintro rfl
      exact ht hwithin
    simp [Operation.apply, Snapshot.typeComment?, Catalog.lookup_put, hne]
  | createTable schema table columns comment =>
    exact grows_createTable (by simpa [Operation.pending] using hpending)
  | addColumn schema table column =>
    refine { Grows.refl types keys s with columns := ?_ }
    intro t c hc
    by_cases ht : t = table
    · subst ht
      refine ⟨c ++ [column.name], ?_, List.prefix_append c _⟩
      simp only [Snapshot.columns?] at hc
      simp [Operation.apply, Snapshot.columns?, Catalog.lookup_alter, hc]
    · refine ⟨c, ?_, List.prefix_refl c⟩
      simpa [Operation.apply, Snapshot.columns?, Catalog.lookup_alter, ht] using hc
  | createIndex schema table name columns unique method late =>
    refine { Grows.refl types keys s with indexes := ?_ }
    intro n hn
    simp only [Snapshot.hasIndex, List.contains_eq_mem, decide_eq_true_eq] at hn
    simp [Operation.apply, Snapshot.hasIndex, Catalog.mem_addMember, hn]
  | addForeignKey schema table constraint column refTable refColumn onDelete =>
    refine { Grows.refl types keys s with constraints := ?_, keyComments := ?_ }
    · intro t name hname
      simp only [Snapshot.hasConstraint] at hname
      by_cases hkey : (t, name) = (table, constraint)
      · simp [Operation.apply, Snapshot.hasConstraint, Catalog.lookup_putNew, hkey]
      · simpa [Operation.apply, Snapshot.hasConstraint, Catalog.lookup_putNew, hkey] using hname
    · intro t name _
      by_cases hkey : (t, name) = (table, constraint)
      · cases hl : s.constraints.lookup (table, constraint) <;>
          simp [Operation.apply, Snapshot.constraintComment?, Catalog.lookup_putNew, hkey, hl]
      · simp [Operation.apply, Snapshot.constraintComment?, Catalog.lookup_putNew, hkey]
  | commentOnConstraint schema table constraint comment =>
    refine { Grows.refl types keys s with constraints := ?_, keyComments := ?_ }
    · intro t name hname
      simp only [Snapshot.hasConstraint] at hname
      by_cases hkey : (t, name) = (table, constraint)
      · simp [Operation.apply, Snapshot.hasConstraint, Catalog.lookup_put, hkey]
      · simpa [Operation.apply, Snapshot.hasConstraint, Catalog.lookup_put, hkey] using hname
    · intro t name hfree
      have hkey : (t, name) ≠ (table, constraint) := by
        intro heq
        obtain ⟨rfl, rfl⟩ := Prod.mk.inj heq
        exact hfree hwithin
      simp [Operation.apply, Snapshot.constraintComment?, Catalog.lookup_put, hkey]
  | createUpdatedTrigger schema table =>
    refine { Grows.refl types keys s with triggers := ?_ }
    intro t name hname
    simp only [Snapshot.hasTrigger, List.contains_eq_mem, decide_eq_true_eq] at hname
    simp [Operation.apply, Snapshot.hasTrigger, Catalog.mem_addMember, hname]
  | blank => exact Grows.refl types keys s

/-! ## Runs -/

/-- A snapshot grows along operations that are each pending at their turn. -/
theorem Grows.applyAll {ops : List Operation}
    (hturn : EachTurn (fun op s => op.pending s = true) ops s)
    (hwithin : ∀ op ∈ ops, CommentsWithin types keys op) :
    Grows types keys s (applyAll ops s) := by
  induction ops generalizing s with
  | nil => exact Grows.refl types keys s
  | cons op rest ih =>
    have hstep : Grows types keys s (op.apply s) :=
      Grows.of_pending hturn.1 (hwithin op List.mem_cons_self)
    exact hstep.trans (ih hturn.2 fun a ha => hwithin a (List.mem_cons_of_mem _ ha))

/-! ## Plans -/

variable {options : Options} {m : Model}

/-- A type is that of an enumeration of a model. -/
def IsEnumType (options : Options) (m : Model) (type : String) : Prop :=
  ∃ n ∈ m.enums, type = Naming.enumTypeOf options.schema n.name

/-- A constraint is the foreign key that a relation of a model reads backwards, on the table of the entity
that holds the key. -/
def IsAnnotated (m : Model) (table name : String) : Prop :=
  ∃ r ∈ m.relations, r.kind ≠ .belongsTo ∧ table = Naming.snakeCase r.keyOwner ∧
    name = Naming.foreignKeyConstraint table (keyColumnOf r)

/-- A compiled entity that is looked up by its name comes from an entity of this name. -/
theorem exists_of_compiledOf {name : String} {c : CompiledEntity}
    (h : compiledOf (compiledEntities options m) name = .ok c) :
    ∃ e ∈ m.entities, e.name = name ∧ e.compile (targetOf options m) = .ok c := by
  unfold compiledOf at h
  split at h
  · next found hfind =>
    obtain rfl := Except.ok.inj h
    have hname : found.name = name := by simpa using List.find?_some hfind
    have hmem : found ∈ compiledEntities options m :=
      List.mem_reverse.mp (List.mem_of_find?_eq_some hfind)
    obtain ⟨e, he, hc⟩ := Progress.exists_of_mem_done hmem
    exact ⟨e, he, (Entity.compile_ok hc).1.symm.trans hname, hc⟩
  · cases h

/-- The table of a compiled entity that is looked up by its name. -/
theorem table_of_compiledOf {name : String} {c : CompiledEntity}
    (h : compiledOf (compiledEntities options m) name = .ok c) : c.table = Naming.snakeCase name := by
  obtain ⟨e, -, hname, hc⟩ := exists_of_compiledOf h
  rw [(Entity.compile_ok hc).2.1, Entity.tableName, hname]

/-- A part of a model has an operation, whatever the model is: the schema, an enumeration, an entity that is found
among the compiled ones, or a relation whose entities and key are found. -/
inductive Outlined (options : Options) (m : Model) : Operation → Prop where
  | schema : Outlined options m (.createSchema options.schema)
  | enumeration {n : Enumeration} {op : Operation} (hn : n ∈ m.enums)
      (hop : op ∈ enumOperations options.schema n) : Outlined options m op
  | entity {declared : Entity} {c : CompiledEntity} {op : Operation} (hdeclared : declared ∈ m.entities)
      (hc : compiledOf (compiledEntities options m) declared.name = .ok c)
      (hop : op ∈ entityOperations options declared c) : Outlined options m op
  | relation {r : Relation} {owner target : CompiledEntity} {f : CompiledField} {op : Operation}
      (hr : r ∈ m.relations) (howner : compiledOf (compiledEntities options m) r.keyOwner = .ok owner)
      (htarget : compiledOf (compiledEntities options m) r.keyTarget = .ok target)
      (hf : keyField? owner (keyColumnOf r) = some f)
      (hop : op ∈ (relationPart options.schema owner target f r).operations) : Outlined options m op

/-- The operations for a relation are there when its entities and its key are found. -/
theorem Outlined.of_relationPart {r : Relation} (hr : r ∈ m.relations) {part : RelationPart}
    (hpart : relationPart? options.schema (compiledEntities options m) r = some part) {op : Operation}
    (hop : op ∈ part.operations) : Outlined options m op := by
  unfold relationPart? at hpart
  split at hpart
  · next owner target howner htarget =>
    obtain ⟨f, hf, rfl⟩ := Option.map_eq_some_iff.mp hpart
    exact .relation hr howner htarget hf hop
  · cases hpart

/-- The operations that a model calls for are those of its parts. -/
theorem outlined_of_mem_wanted {op : Operation} (h : op ∈ wanted options m) : Outlined options m op := by
  simp only [wanted, outlineOf, Outline.sorted, List.mem_append, List.mem_map, List.mem_flatMap] at h
  obtain h | h | ⟨part, hpart, rfl⟩ | ⟨part, hpart, h⟩ := h
  · rcases List.mem_cons.mp h with rfl | h
    · exact .schema
    · obtain ⟨n, hn, h⟩ := List.mem_flatMap.mp h
      exact .enumeration hn h
  · obtain ⟨declared, hdeclared, h⟩ := List.mem_flatMap.mp h
    split at h
    · next c hc => exact .entity hdeclared hc h
    · cases h
  · obtain ⟨r, hr, hpart⟩ := List.mem_filterMap.mp hpart
    exact .of_relationPart hr hpart List.mem_cons_self
  · obtain ⟨r, hr, hpart⟩ := List.mem_filterMap.mp hpart
    exact .of_relationPart hr hpart (List.mem_cons_of_mem _ h)

/-- The operations for a model comment on the types of its enumerations, and on the foreign keys that its
relations read backwards. -/
theorem Outlined.commentsWithin {op : Operation} (h : Outlined options m op) :
    CommentsWithin (IsEnumType options m) (IsAnnotated m) op := by
  cases h with
  | schema => exact trivial
  | enumeration hn hop =>
    rcases List.mem_pair.mp hop with rfl | rfl
    · exact trivial
    · exact ⟨_, hn, rfl⟩
  | entity _ _ hop =>
    obtain rfl | ⟨c, -, rfl⟩ | ⟨spec, -, rfl⟩ | ⟨-, rfl⟩ := mem_entityOperations.mp hop <;> exact trivial
  | relation hr howner _ _ hop =>
    rcases List.mem_cons.mp hop with rfl | hop
    · exact trivial
    · obtain ⟨hkind, rfl⟩ | ⟨-, rfl⟩ := mem_inverseOperations.mp hop
      · exact ⟨_, hr, hkind, table_of_compiledOf howner, rfl⟩
      · exact trivial

/-- There is a plan only for an agenda without a fault. -/
theorem agenda_fault_of_plan {ops : List Operation} (h : plan options m s = .ok ops) :
    (agenda options m).fault = none := by
  unfold plan at h
  dsimp only at h
  split at h
  · cases h
  · split at h
    · cases h
    · cases h
    · next hfault => exact hfault

/-- A plan is what settling the operations of a model takes, whatever the model is. -/
theorem settle_of_plan {ops : List Operation} (h : plan options m s = .ok ops) :
    settle (wanted options m) s = ⟨ops, none⟩ := by
  rw [plan_eq_settle (agenda_fault_of_plan h)] at h
  split at h
  · cases h
  · exact Progress.all_eq_ok.mp h

/-- A plan only adds: after any number of its operations a snapshot holds all that it held.  Enum types have
their labels, tables have their columns in front of any new ones, and no index, constraint or trigger is gone;
comments differ at most on the types of the enumerations of the model and on the foreign keys that its
relations read backwards. -/
theorem plan_additive {ops : List Operation} (hplan : plan options m s = .ok ops) (k : ℕ) :
    Grows (IsEnumType options m) (IsAnnotated m) s (applyAll (ops.take k) s) := by
  have hsettle := settle_of_plan hplan
  have hsub := settle_sublist (wanted options m) s
  have hturn := settle_eachTurn_pending (wanted options m) s
  rw [hsettle] at hsub hturn
  refine Grows.applyAll (hturn.take k) fun op hop => Outlined.commentsWithin ?_
  exact outlined_of_mem_wanted (hsub.subset (List.mem_of_mem_take hop))

/-- Two entities with one table; no document yields them. -/
def sharedTableModel : Model where
  entities :=
    [ { name := "Tag", fields := [{ name := "id", type := .scalar .id }] },
      { name := "TAG"
        fields := [{ name := "code", type := .scalar .id }, { name := "label", type := .scalar .string }] } ]

/-- A schema with a table of tags, and with a type, a constraint and a trigger that no model knows. -/
def legacy : Snapshot where
  schema := "public"
  schemaExists := true
  enums := [("currency", ["EUR", "USD"])]
  typeComments := [("currency", some "ISO 4217")]
  tables := [("tag", ["legacy", "id"])]
  indexes := ["tag_legacy"]
  constraints := [(("tag", "tag_check"), some "not empty")]
  triggers := [("tag", "audit")]

/-- The first three operations of a plan for two entities with one table take nothing from a schema that has
this table. -/
theorem plan_additive_legacy : ∃ ops, plan {} sharedTableModel legacy = .ok ops ∧ 3 < ops.length ∧
    Grows (IsEnumType {} sharedTableModel) (IsAnnotated sharedTableModel) legacy
      (applyAll (ops.take 3) legacy) := by
  have hplan : plan {} sharedTableModel legacy =
      .ok ((plan {} sharedTableModel legacy).toOption.getD []) :=
    eq_ok_of_toOption (by decide +kernel)
  exact ⟨_, hplan, by decide +kernel, plan_additive hplan 3⟩

end SchemaReconcile.Plan
