import SchemaReconcile.Proofs.Catalog.Rows
import SchemaReconcile.Proofs.Plan.Additive
import SchemaReconcile.Proofs.Plan.EnumTypes
import SchemaReconcile.Proofs.Sql.CreatesType

/-!
# Types that are there already

Two queries tell of the enum types of a schema: one lists the types with their comments, the other the labels of
each.  A plan reads off the labels alone whether a type is there (`labels?_toSnapshot`), so a type without labels
counts as missing although it is listed.  Whether a listed type is created once more therefore depends on its
labels (`listedType_created_iff`): with labels it never is, and a model that calls for other ones is refused;
without labels it is created again for each enumeration that it belongs to.

The model need not be a sound one, and several enumerations may share a type.
-/

namespace SchemaReconcile.Plan

open Catalog (Event Operation Query Rows Server Snapshot rowsOf)
open Catalog.Operation (applyAll)
open Catalog.Session (Carries Writes planOn reconcile)
open Settings (Options)
open Sql (CreatesType)

variable {options : Options} {m : Model} {s : Snapshot} {ops : List Operation} {server : Server} {rows : Rows}
  {type : String}

/-! ## Rows -/

/-- The types are listed only in a schema that exists. -/
theorem schemaExists_of_asked (h : .typeComments ∈ rows.asked) : rows.schemaExists = true := by
  unfold Rows.asked at h
  split at h
  · assumption
  · exact absurd h (by decide)

/-- The labels of a type are those in its rows, and a type without rows has none. -/
theorem labels?_toSnapshot (h : rows.schemaExists = true) (schema type : String) :
    (rows.toSnapshot schema).labels? type =
      if rowsOf type rows.enumLabels = [] then none else some (rowsOf type rows.enumLabels) := by
  have hread := Catalog.lookup_foldl_alter (fun label => [label]) type rows.enumLabels []
  rw [Rows.toSnapshot, if_pos h]
  refine hread.trans ?_
  split
  · rfl
  · simp

/-- A listed type has an entry among the comments, with a comment or without. -/
theorem typeComments_toSnapshot (h : rows.schemaExists = true) (schema : String) {comment : Option String}
    (hlisted : (type, comment) ∈ rows.typeComments) :
    ((rows.toSnapshot schema).typeComments.lookup type).isSome = true := by
  have hrow : comment ∈ rowsOf type rows.typeComments := by
    refine List.mem_map.mpr ⟨(type, comment), List.mem_filter.mpr ⟨hlisted, ?_⟩, rfl⟩
    exact beq_self_eq_true type
  have hread := Catalog.lookup_foldl_put type rows.typeComments []
  rw [Rows.toSnapshot, if_pos h]
  have hlookup : (Catalog.ofPairs rows.typeComments).lookup type =
      (rowsOf type rows.typeComments).getLast?.or none := hread
  rw [hlookup, Option.or_none, List.getLast?_isSome]
  exact List.ne_nil_of_mem hrow

/-! ## Plans -/

/-- A planned operation is one that the model calls for. -/
theorem mem_wanted_of_mem_plan (hplan : plan options m s = .ok ops) {op : Operation} (hop : op ∈ ops) :
    op ∈ wanted options m := by
  have hsub := settle_sublist (wanted options m) s
  rw [settle_of_plan hplan] at hsub
  exact hsub.subset hop

/-- An operation that is wanted and creates a type is that of an enumeration. -/
theorem mem_wanted_iff_of_createdType {op : Operation} (htype : createdType? op = some type) :
    op ∈ wanted options m ↔ ∃ n ∈ m.enums, typeOf options n = type ∧ op = typeOperation options n := by
  have hcreates : createsType op = true := by
    rw [createsType, htype]
    rfl
  have hmem : op ∈ wanted options m ↔ op ∈ (wanted options m).filter createsType := by
    rw [List.mem_filter, hcreates]
    simp
  rw [hmem, filter_wanted, List.mem_map]
  constructor
  · rintro ⟨n, hn, rfl⟩
    exact ⟨n, hn, Option.some.inj htype, rfl⟩
  · rintro ⟨n, hn, -, rfl⟩
    exact ⟨n, hn, rfl⟩

/-- A plan creates no type that has labels. -/
theorem labels?_of_mem_plan (hplan : plan options m s = .ok ops) {op : Operation} (hop : op ∈ ops)
    (htype : createdType? op = some type) : s.labels? type = none := by
  obtain ⟨i, hi, rfl⟩ := List.getElem_of_mem hop
  have hturn := settle_eachTurn_pending (wanted options m) s
  rw [settle_of_plan hplan] at hturn
  have hpending : (ops[i]).pending (applyAll (ops.take i) s) = true := hturn.getElem i hi
  by_contra hsome
  obtain ⟨live, hlive⟩ := Option.ne_none_iff_exists'.mp hsome
  -- what has labels before the plan has them whenever its turn comes
  have hkept := (plan_additive hplan i).labels type live hlive
  generalize ops[i] = op at hpending htype
  cases op with
  | createEnumType schema type' labels enumeration =>
    obtain rfl := Option.some.inj htype
    simp [Operation.pending, hkept] at hpending
  | _ => cases htype

/-- Where a type without labels is wanted, it is created. -/
theorem exists_created {ops taken : List Operation} (hsettle : settle ops s = ⟨taken, none⟩)
    (hnone : s.labels? type = none) {op : Operation} (hop : op ∈ ops) (htype : createdType? op = some type) :
    ∃ op ∈ taken, createdType? op = some type := by
  induction ops generalizing s taken with
  | nil => cases hop
  | cons first rest ih =>
    by_cases hfirst : createdType? first = some type
    · have hpending : first.pending s = true := by
        cases first with
        | createEnumType schema type' labels enumeration =>
          obtain rfl := Option.some.inj hfirst
          simp [Operation.pending, hnone]
        | _ => cases hfirst
      obtain ⟨-, ⟨-, later, rfl, -⟩ | ⟨hidle, -⟩⟩ := settle_cons_eq hsettle
      · exact ⟨first, List.mem_cons_self, hfirst⟩
      · rw [hpending] at hidle
        cases hidle
    · have hrest : op ∈ rest := by
        rcases List.mem_cons.mp hop with rfl | hrest
        · exact absurd htype hfirst
        · exact hrest
      have hadvance : (advance first s).labels? type = none := by
        rw [labels?_advance, hnone]
        rintro schema labels name rfl
        exact hfirst rfl
      obtain ⟨-, ⟨hpending, later, rfl, hlater⟩ | ⟨-, hlater⟩⟩ := settle_cons_eq hsettle
      · rw [advance, if_pos hpending] at hadvance
        obtain ⟨op', hop', htype'⟩ := ih hlater hadvance hrest
        exact ⟨op', List.mem_cons_of_mem _ hop', htype'⟩
      · exact ih hlater hnone hrest

/-- Settling fails for a type with other labels only. -/
theorem settle_fault_eq {ops : List Operation} {fault : Fault} (h : (settle ops s).fault = some fault) :
    ∃ enumeration live values, fault = .enumDrift enumeration live values := by
  induction ops generalizing s with
  | nil => cases h
  | cons op rest ih =>
    cases hconflict : op.conflict? s with
    | some live =>
      rw [settle_cons_conflict hconflict] at h
      cases op with
      | createEnumType schema type labels enumeration => exact ⟨enumeration, live, labels, (Option.some.inj h).symm⟩
      | _ => cases hconflict
    | none =>
      rw [settle_cons_fault hconflict] at h
      exact ih h

/-- The agenda of a model has the types of its enumerations, whether it ends with a fault or not. -/
theorem typeOperation_mem_agenda {n : Enumeration} (hn : n ∈ m.enums) :
    typeOperation options n ∈ operationsOf (agenda options m).done := by
  refine List.mem_filterMap.mpr ⟨.ensure (.enumeration n.name) (typeOperation options n), ?_, rfl⟩
  have hstep : Step.ensure (.enumeration n.name) (typeOperation options n) ∈ enumSteps options.schema n :=
    List.mem_cons_self
  rw [agenda, Progress.join, Progress.join]
  exact List.mem_append_right _ (List.mem_append_left _ (List.mem_flatMap.mpr ⟨n, hn, hstep⟩))

/-- An enumeration whose type has labels has these as its values, or the model is refused. -/
theorem values_or_refused {live : List String} (hlive : s.labels? type = some live) {n : Enumeration}
    (hn : n ∈ m.enums) (htype : typeOf options n = type) :
    n.values = live ∨ ∃ fault, plan options m s = .error fault ∧
      ((∃ entity count limit, fault = .tooManyIndexes entity count limit) ∨
        ∃ enumeration live values, fault = .enumDrift enumeration live values) := by
  subst htype
  rw [plan]
  cases hlimit : indexLimitFault? options m with
  | some fault =>
    obtain ⟨e, -, hfault⟩ := indexLimitFault?_eq_some.mp hlimit
    exact .inr ⟨fault, rfl, .inl ⟨_, _, _, hfault⟩⟩
  | none =>
    cases hsettle : (settle (operationsOf (agenda options m).done) s).fault with
    | some fault =>
      refine .inr ⟨fault, ?_, .inr (settle_fault_eq hsettle)⟩
      rw [operationsOf] at hsettle
      simp only [hsettle]
    | none =>
      left
      have htaken : settle (operationsOf (agenda options m).done) s =
          ⟨(settle (operationsOf (agenda options m).done) s).done, none⟩ := by
        rw [← hsettle]
      have hwants : Catalog.Fact.labels (typeOf options n) n.values ∈ (typeOperation options n).wants := by
        simp [typeOperation, Operation.wants]
      -- the labels that are there stay, and those that are wanted are there in the end
      have hwanted := settle_shows_of_steady htaken (typeOperation_mem_agenda hn) hwants (steady_labels _ _)
      have hkept := (steady_labels (typeOf options n) live).shows_applyAll
        (settle_eachTurn_pending (operationsOf (agenda options m).done) s) hlive
      exact Option.some.inj (hwanted.symm.trans hkept)

/-! ## Sessions -/

/-- A statement of a plan that creates a type is that of the operation for this type. -/
theorem createdType_of_writes {op : Operation} (hop : op ∈ wanted options m) {sql : String}
    (hwrites : Writes op sql) : CreatesType options.schema type sql ↔ createdType? op = some type := by
  rw [Catalog.createsType_iff hwrites]
  constructor
  · rintro ⟨labels, enumeration, rfl⟩
    rfl
  · intro htype
    obtain ⟨n, -, rfl, rfl⟩ := (mem_wanted_iff_of_createdType htype).mp hop
    exact ⟨_, _, rfl⟩

/-- An operation that creates a type has a text. -/
theorem ne_nil_of_createdType {op : Operation} (htype : createdType? op = some type) {t : List String}
    (hrender : op.render = .ok t) : t ≠ [] := by
  rintro rfl
  obtain ⟨statements, hstatements, ht⟩ := bind_eq_ok.mp hrender
  cases op with
  | createEnumType =>
    cases hstatements
    cases mapM_eq_ok_iff.mp ht
  | _ => cases htype

/-- A session asks a server to create a type only if the plan has the operation for it. -/
theorem exists_mem_plan_of_told {sql : String}
    (htold : .execute sql ∈ (reconcile server options m).events ∨ .fail sql ∈ (reconcile server options m).events)
    (hcreates : CreatesType options.schema type sql) :
    ∃ ops, plan options m (server.rows.toSnapshot options.schema) = .ok ops ∧
      ∃ op ∈ ops, createdType? op = some type := by
  cases hplan : plan options m (server.rows.toSnapshot options.schema) with
  | error fault =>
    obtain ⟨-, hqueries⟩ := session_of_plan_error hplan
    rcases htold with htold | htold
    · obtain ⟨query, schema, heq⟩ := hqueries _ htold
      cases heq
    · obtain ⟨query, schema, heq⟩ := hqueries _ htold
      cases heq
  | ok ops =>
    have hplanned : planOn server options m = .ok ops := by
      rw [planOn, hplan]
      rfl
    obtain ⟨op, hop, hwrites⟩ := Catalog.Session.exists_writes_of_mem (.reconciling hplanned) htold
    have hwanted := mem_wanted_of_mem_plan hplan hop
    exact ⟨ops, rfl, op, hop, (createdType_of_writes hwanted hwrites).mp hcreates⟩

/-- A session without a fault creates a type that is wanted and has no labels. -/
theorem exists_execute_of_ok {done : List Operation} (hresult : (reconcile server options m).result = .ok done)
    (hnone : (server.rows.toSnapshot options.schema).labels? type = none) {n : Enumeration} (hn : n ∈ m.enums)
    (htype : typeOf options n = type) :
    ∃ sql, .execute sql ∈ (reconcile server options m).events ∧ CreatesType options.schema type sql := by
  cases hplan : plan options m (server.rows.toSnapshot options.schema) with
  | error fault =>
    rw [(session_of_plan_error hplan).1] at hresult
    cases hresult
  | ok ops =>
    have hplanned : planOn server options m = .ok ops := by
      rw [planOn, hplan]
      rfl
    have hcreated : createdType? (typeOperation options n) = some type := congrArg some htype
    have hwanted := (mem_wanted_iff_of_createdType hcreated).mpr ⟨n, hn, htype, rfl⟩
    obtain ⟨op, hop, hop'⟩ := exists_created (settle_of_plan hplan) hnone hwanted hcreated
    obtain ⟨t, hrender, hexecutes⟩ := Catalog.Session.executes_of_ok (.reconciling hplanned) hresult hop
    obtain ⟨sql, hsql⟩ := List.exists_mem_of_ne_nil t (ne_nil_of_createdType hop' hrender)
    have hwrites : Writes op sql := Catalog.Session.writes_of_render hrender hsql
    have hplannedType := (createdType_of_writes (mem_wanted_of_mem_plan hplan hop) hwrites).mpr hop'
    exact ⟨sql, hexecutes sql hsql, hplannedType⟩

/-- A type that is listed is asked to be created once more only if it has no labels and an enumeration has it;
a session without a fault then does create it.  Where it has labels, an enumeration with this type has them as
its values, or the model is refused for its indexes or for a type with other labels. -/
theorem listedType_created_iff (hasked : .typeComments ∈ server.rows.asked) {comment : Option String}
    (hlisted : (type, comment) ∈ server.rows.typeComments) (options : Options) (m : Model) :
    ((server.rows.toSnapshot options.schema).typeComments.lookup type).isSome = true ∧
    (∀ sql, .execute sql ∈ (reconcile server options m).events ∨
        .fail sql ∈ (reconcile server options m).events →
      CreatesType options.schema type sql →
      rowsOf type server.rows.enumLabels = [] ∧ ∃ n ∈ m.enums, typeOf options n = type) ∧
    (∀ done, (reconcile server options m).result = .ok done →
      ((∃ sql, .execute sql ∈ (reconcile server options m).events ∧ CreatesType options.schema type sql) ↔
        rowsOf type server.rows.enumLabels = [] ∧ ∃ n ∈ m.enums, typeOf options n = type)) ∧
    (rowsOf type server.rows.enumLabels ≠ [] → ∀ n ∈ m.enums, typeOf options n = type →
      n.values = rowsOf type server.rows.enumLabels ∨
        ∃ fault, (reconcile server options m).result = .error (.plan fault) ∧
          ((∃ entity count limit, fault = .tooManyIndexes entity count limit) ∨
            ∃ enumeration live values, fault = .enumDrift enumeration live values)) := by
  have hexists := schemaExists_of_asked hasked
  have hlabels := labels?_toSnapshot hexists options.schema type
  have honly : ∀ sql, .execute sql ∈ (reconcile server options m).events ∨
        .fail sql ∈ (reconcile server options m).events →
      CreatesType options.schema type sql →
      rowsOf type server.rows.enumLabels = [] ∧ ∃ n ∈ m.enums, typeOf options n = type := by
    intro sql htold hcreates
    obtain ⟨ops, hplan, op, hop, htype⟩ := exists_mem_plan_of_told htold hcreates
    obtain ⟨n, hn, hown, -⟩ := (mem_wanted_iff_of_createdType htype).mp (mem_wanted_of_mem_plan hplan hop)
    refine ⟨?_, n, hn, hown⟩
    by_contra hrows
    rw [if_neg hrows, labels?_of_mem_plan hplan hop htype] at hlabels
    cases hlabels
  refine ⟨typeComments_toSnapshot hexists options.schema hlisted, honly, ?_, ?_⟩
  · intro done hresult
    constructor
    · rintro ⟨sql, hsql, hcreates⟩
      exact honly sql (.inl hsql) hcreates
    · rintro ⟨hrows, n, hn, htype⟩
      rw [if_pos hrows] at hlabels
      exact exists_execute_of_ok hresult hlabels hn htype
  · intro hrows n hn htype
    rw [if_neg hrows] at hlabels
    rcases values_or_refused hlabels hn htype with hvalues | ⟨fault, hplan, hfault⟩
    · exact .inl hvalues
    · exact .inr ⟨fault, (session_of_plan_error hplan).1, hfault⟩

/-- A server with the type of a mood, with the labels of a few. -/
def moodServer (labels : List String) : Server where
  rows :=
    { schemas := 1
      typeComments := [(Naming.enumTypeOf "public" "Mood", none)]
      enumLabels := labels.map fun label => (Naming.enumTypeOf "public" "Mood", label) }

/-- The type of a mood with its labels in place is left alone. -/
theorem listedType_created_iff_moodServer :
    .typeComments ∈ (moodServer ["CALM", "BUSY"]).rows.asked ∧
    (Naming.enumTypeOf "public" "Mood", none) ∈ (moodServer ["CALM", "BUSY"]).rows.typeComments ∧
    (∃ done, (reconcile (moodServer ["CALM", "BUSY"]) {} profileModel).result = .ok done) ∧
    ∀ sql, .execute sql ∈ (reconcile (moodServer ["CALM", "BUSY"]) {} profileModel).events →
      ¬ CreatesType "public" (Naming.enumTypeOf "public" "Mood") sql := by
  have hasked : Query.typeComments ∈ (moodServer ["CALM", "BUSY"]).rows.asked := by decide
  have hlisted : (Naming.enumTypeOf "public" "Mood", none) ∈
      (moodServer ["CALM", "BUSY"]).rows.typeComments := List.mem_cons_self
  have hresult := eq_ok_of_toOption (x := (reconcile (moodServer ["CALM", "BUSY"]) {} profileModel).result)
    (a := ((reconcile (moodServer ["CALM", "BUSY"]) {} profileModel).result.toOption.getD []))
    (by decide +kernel)
  refine ⟨hasked, hlisted, ⟨_, hresult⟩, fun sql hsql hcreates => ?_⟩
  obtain ⟨hnone, -⟩ := (listedType_created_iff hasked hlisted {} profileModel).2.1 sql (.inl hsql) hcreates
  exact absurd hnone (by decide +kernel)

/-- The type of a mood without labels is listed, and is created once more all the same. -/
theorem listedType_created_again :
    extract profileDocument = .ok profileModel ∧
    .typeComments ∈ (moodServer []).rows.asked ∧
    (Naming.enumTypeOf "public" "Mood", none) ∈ (moodServer []).rows.typeComments ∧
    ∃ sql, .execute sql ∈ (reconcile (moodServer []) {} profileModel).events ∧
      CreatesType "public" (Naming.enumTypeOf "public" "Mood") sql := by
  have hexecuted : Event.execute "CREATE TYPE \"public\".\"public_enum_780fe43f\" AS ENUM ('CALM', 'BUSY')" ∈
      (reconcile (moodServer []) {} profileModel).events := by
    decide +kernel
  refine ⟨extract_profileDocument, by decide, List.mem_cons_self, _, hexecuted, "'CALM', 'BUSY')", ?_⟩
  decide +kernel

end SchemaReconcile.Plan
