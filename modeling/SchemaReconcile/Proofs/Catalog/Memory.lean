import SchemaReconcile.Catalog.Memory
import SchemaReconcile.Proofs.Plan.Taken

/-!
# Catalogs in memory, reconciled again

A catalog in memory holds the state of one schema.  It is read with a look at the schema that is asked for, but
operations are carried out on it whatever their schema is.  So what a second run does depends on whether the two
schemas are the same (`reconcile_again`): if they are, it finds nothing to do; if not, it plans for a schema that
does not exist and carries out all operations again.

The second part rests on the operations of such a plan.  None of them undoes what another one did
(`Repeatable`), so once all of them are carried out each leaves the snapshot as it is (`idle_applyAll`).
-/

namespace SchemaReconcile

namespace Catalog

open Operation (applyAll)

namespace Operation

variable {a b : Operation} {s : Snapshot} {ops : List Operation}

/-! ## Idle operations -/

/-- An operation leaves a snapshot as it is. -/
def Idle (op : Operation) (s : Snapshot) : Prop := op.apply s = s

/-- The table that an operation creates, with its columns. -/
def createdTable? : Operation → Option (String × List String)
  | createTable _ table columns _ => some (table, columns.map (·.name))
  | _ => none

/-- An operation adds a column to a table. -/
def addsColumn : Operation → Bool
  | addColumn .. => true
  | _ => false

/-- An operation undoes nothing that another one does. -/
structure Keeps (b a : Operation) : Prop where
  facts : ∀ f ∈ a.wants, ¬ b.Overwrites f
  tables : ∀ table names names', a.createdTable? = some (table, names) →
    b.createdTable? = some (table, names') → names' = names
  columns : b.addsColumn = false

/-- The facts that an operation leaves behind, but for a table with its columns: those that it is for, or the key
of a table. -/
def marks : Operation → List Fact
  | createTable _ table columns _ => keyEffects table columns
  | op => op.wants

/-- An operation is done in a snapshot: its facts are shown, and a table that it creates has just its columns. -/
structure Done (op : Operation) (s : Snapshot) : Prop where
  marks : ∀ f ∈ op.marks, s.Shows f
  table : ∀ table names, op.createdTable? = some (table, names) → s.columns? table = some names

section Done

attribute [local simp] apply marks wants createdTable? keyEffects put_eq_self_iff putNew_eq_self_iff
  addMember_eq_self_iff lookup_put lookup_putNew mem_addMember Snapshot.Shows Snapshot.labels?
  Snapshot.typeComment? Snapshot.columns? Snapshot.hasTable Snapshot.hasIndex Snapshot.hasConstraint
  Snapshot.constraintComment? Snapshot.hasTrigger

/-- What it is for an operation to be done. -/
theorem done_iff : a.Done s ↔ (∀ f ∈ a.marks, s.Shows f) ∧
    ∀ table names, a.createdTable? = some (table, names) → s.columns? table = some names :=
  ⟨fun h => ⟨h.marks, h.table⟩, fun h => ⟨h.1, h.2⟩⟩

/-- An operation that adds no column leaves a snapshot as it is exactly when it is done there. -/
theorem idle_iff (h : a.addsColumn = false) : a.Idle s ↔ a.Done s := by
  obtain ⟨schema, schemaExists, enums, typeComments, tables, indexes, constraints, triggers⟩ := s
  rw [Idle, done_iff]
  cases a with
  | createEnumType schema type labels enumeration =>
    have hthere : enums.lookup type = some labels → (enums.lookup type).isSome = true := fun h => by simp [h]
    simpa [-List.lookup_isSome_iff] using hthere
  | createTable schema table columns comment =>
    cases hkey : (Sql.keyColumns columns).isEmpty <;>
      simp [hkey, and_comm, -List.lookup_isSome_iff]
  | addColumn => cases h
  | commentOnType => simp [Option.join_eq_some_iff]
  | commentOnConstraint => simp [Option.join_eq_some_iff]
  | _ => simp

/-- An operation that adds no column is done once it was carried out. -/
theorem done_apply (s : Snapshot) (h : a.addsColumn = false) : a.Done (a.apply s) := by
  refine ⟨?_, ?_⟩
  · cases a with
    | createTable schema table columns comment =>
      cases hkey : (Sql.keyColumns columns).isEmpty <;> simp [hkey]
    | addColumn => cases h
    | _ => simp
  · intro table names htable
    cases a with
    | createTable schema t columns comment =>
      obtain ⟨rfl, rfl⟩ := Prod.mk.inj (Option.some.inj htable)
      cases hkey : (Sql.keyColumns columns).isEmpty <;> simp [hkey]
    | _ => cases htable

/-- The columns of a table stay as they are when no column is added and the table is not created with others. -/
theorem columns?_apply {table : String} {names : List String} (h : s.columns? table = some names)
    (hcolumns : b.addsColumn = false)
    (htables : ∀ names', b.createdTable? = some (table, names') → names' = names) :
    (b.apply s).columns? table = some names := by
  cases b with
  | createTable schema t columns comment =>
    by_cases ht : table = t
    · subst ht
      obtain rfl := htables _ rfl
      cases hkey : (Sql.keyColumns columns).isEmpty <;> simp [hkey]
    · cases hkey : (Sql.keyColumns columns).isEmpty <;> simpa [hkey, ht] using h
  | addColumn => cases hcolumns
  | _ => exact h

/-- What an operation leaves behind it is for, or it lasts; it is no column. -/
theorem of_mem_marks {f : Fact} (h : a.addsColumn = false) (hf : f ∈ a.marks) :
    (f ∈ a.wants ∨ f.Lasting) ∧ ∀ table column, f ≠ .column table column := by
  cases a with
  | createTable schema table columns comment =>
    obtain ⟨-, rfl | rfl⟩ := (mem_keyEffects f).mp hf
    · exact ⟨.inr trivial, fun _ _ => Fact.noConfusion⟩
    · exact ⟨.inr trivial, fun _ _ => Fact.noConfusion⟩
  | createEnumType =>
    refine ⟨.inl hf, fun table column heq => ?_⟩
    simp [heq] at hf
  | addColumn => cases h
  | blank => cases hf
  | _ =>
    refine ⟨.inl hf, fun table column heq => ?_⟩
    cases heq ▸ List.mem_singleton.mp hf

/-- What is done stays done when an operation is carried out that undoes nothing of it. -/
theorem Done.kept (h : a.Done s) (ha : a.addsColumn = false) (hkeeps : b.Keeps a) : a.Done (b.apply s) := by
  refine ⟨fun f hf => ?_, fun table names htable => ?_⟩
  · obtain ⟨hwanted, hcolumn⟩ := of_mem_marks ha hf
    have hkept : ¬ b.Overwrites f := hwanted.elim (hkeeps.facts f) not_overwrites_of_lasting
    exact shows_apply_of_kept (h.marks f hf) hkept hcolumn
  · exact columns?_apply (h.table table names htable) hkeeps.columns
      fun names' hcreates => hkeeps.tables table names names' htable hcreates

end Done

/-! ## Repeating operations -/

/-- Operations none of which undoes what one of them does. -/
def Repeatable (ops : List Operation) : Prop := ∀ a ∈ ops, ∀ b ∈ ops, b.Keeps a

/-- What is done stays done along operations that undo nothing of it. -/
theorem Done.applyAll (h : a.Done s) (ha : a.addsColumn = false) (hkeeps : ∀ b ∈ ops, b.Keeps a) :
    a.Done (applyAll ops s) := by
  induction ops generalizing s with
  | nil => exact h
  | cons b rest ih =>
    obtain ⟨hb, hrest⟩ := List.forall_mem_cons.mp hkeeps
    have hstep : a.Done (b.apply s) := h.kept ha hb
    exact ih hstep hrest

/-- Operations that undo nothing of each other are all done once they are carried out. -/
theorem done_applyAll (h : Repeatable ops) (s : Snapshot) : ∀ a ∈ ops, a.Done (applyAll ops s) := by
  induction ops generalizing s with
  | nil => simp
  | cons b rest ih =>
    have hrest : Repeatable rest := fun a ha c hc =>
      h a (List.mem_cons_of_mem _ ha) c (List.mem_cons_of_mem _ hc)
    have hb : b.addsColumn = false := (h b List.mem_cons_self b List.mem_cons_self).columns
    refine List.forall_mem_cons.mpr ⟨?_, ih hrest (b.apply s)⟩
    exact (done_apply s hb).applyAll hb fun c hc => h b List.mem_cons_self c (List.mem_cons_of_mem _ hc)

/-- Once operations that undo nothing of each other are carried out, each of them leaves the snapshot as it
is. -/
theorem idle_applyAll (h : Repeatable ops) (s : Snapshot) : ∀ a ∈ ops, a.Idle (applyAll ops s) :=
  fun a ha => (idle_iff (h a ha a ha).columns).mpr (done_applyAll h s a ha)

/-- Operations that each leave a snapshot as it is do so one after another. -/
theorem applyAll_of_idle (h : ∀ a ∈ ops, a.Idle s) : applyAll ops s = s := by
  induction ops with
  | nil => rfl
  | cons op rest ih =>
    obtain ⟨hop, hrest⟩ := List.forall_mem_cons.mp h
    have hstep : applyAll (op :: rest) s = applyAll rest s := congrArg (applyAll rest) hop
    rw [hstep, ih hrest]

/-- Operations that undo nothing of each other leave a snapshot as it is exactly when each of them does. -/
theorem applyAll_eq_self_iff (h : Repeatable ops) : applyAll ops s = s ↔ ∀ a ∈ ops, a.Idle s := by
  refine ⟨fun hsame => ?_, applyAll_of_idle⟩
  have hidle := idle_applyAll h s
  rwa [hsame] at hidle

/-- Operations that undo nothing of each other change nothing when they are carried out again. -/
theorem applyAll_applyAll (h : Repeatable ops) (s : Snapshot) :
    applyAll ops (applyAll ops s) = applyAll ops s :=
  applyAll_of_idle (idle_applyAll h s)

/-- Operations keep the schema that a snapshot is of. -/
theorem schema_applyAll (ops : List Operation) (s : Snapshot) : (applyAll ops s).schema = s.schema := by
  induction ops generalizing s with
  | nil => rfl
  | cons op rest ih => exact (ih (op.apply s)).trans (op.schema_apply s)

end Operation

/-! ## Carrying operations out -/

namespace Memory

variable {c c' : Memory} {ops : List Operation}

/-- Operations with statements are carried out, and the others go on from there. -/
theorem executeAll_append {own : List (List Sql.Statement)}
    (h : List.Forall₂ (fun op statements => op.statements = .ok statements) ops own) (c : Memory)
    (rest : List Operation) :
    c.executeAll (ops ++ rest) = Memory.executeAll { snapshot := applyAll ops c.snapshot
                                                     operations := c.operations ++ ops
                                                     statements := c.statements ++ own.flatten } rest := by
  induction h generalizing c with
  | nil => simp [applyAll]
  | @cons op statements later own hop _ ih =>
    have hstep : c.execute op = ({ snapshot := op.apply c.snapshot
                                   operations := c.operations ++ [op]
                                   statements := c.statements ++ statements }, none) := by
      rw [execute, hop]
    rw [List.cons_append, executeAll, hstep]
    simp only [ih, List.append_assoc, List.singleton_append, List.flatten_cons]
    rfl

/-- Operations are carried out with their statements, whatever the catalog holds. -/
theorem executeAll_of_statements {own : List (List Sql.Statement)}
    (h : List.Forall₂ (fun op statements => op.statements = .ok statements) ops own) (c : Memory) :
    c.executeAll ops = ({ snapshot := applyAll ops c.snapshot
                          operations := c.operations ++ ops
                          statements := c.statements ++ own.flatten }, none) := by
  rw [← List.append_nil ops, executeAll_append h, executeAll, List.append_nil]

/-- Operations that were all carried out have statements. -/
theorem exists_statements (h : c.executeAll ops = (c', none)) :
    ∀ op ∈ ops, ∃ statements, op.statements = .ok statements := by
  induction ops generalizing c with
  | nil => simp
  | cons op rest ih =>
    rw [executeAll, execute] at h
    cases hstatements : op.statements with
    | error fault =>
      rw [hstatements] at h
      cases h
    | ok statements =>
      rw [hstatements] at h
      exact List.forall_mem_cons.mpr ⟨⟨statements, hstatements⟩, ih h⟩

/-- A run that succeeds plans for the schema that is asked for, and carries the plan out on the snapshot. -/
theorem reconcile_ok {options : Settings.Options} {m : Model} (h : c.reconcile options m = (c', .ok ops)) :
    Plan.plan options m (c.fetch options.schema) = .ok ops ∧
      (∀ op ∈ ops, ∃ statements, op.statements = .ok statements) ∧
      c'.snapshot = applyAll ops c.snapshot := by
  unfold reconcile at h
  cases hplan : Plan.plan options m (c.fetch options.schema) with
  | error fault =>
    rw [hplan] at h
    cases h
  | ok planned =>
    rw [hplan] at h
    dsimp only at h
    split at h
    · cases h
    · next hrun =>
      cases h
      have hstatements := exists_statements hrun
      obtain ⟨own, hown⟩ := exists_forall₂ hstatements
      have hexecuted := executeAll_of_statements hown c
      rw [hrun] at hexecuted
      exact ⟨rfl, hstatements, congrArg Memory.snapshot (Prod.mk.inj hexecuted).1⟩

/-- A run whose plan has statements carries it out. -/
theorem exists_reconcile {options : Settings.Options} {m : Model}
    (hplan : Plan.plan options m (c.fetch options.schema) = .ok ops)
    (h : ∀ op ∈ ops, ∃ statements, op.statements = .ok statements) :
    ∃ c', c.reconcile options m = (c', .ok ops) ∧ c'.snapshot = applyAll ops c.snapshot ∧
      c'.operations = c.operations ++ ops := by
  obtain ⟨own, hown⟩ := exists_forall₂ h
  rw [reconcile, hplan]
  dsimp only
  rw [executeAll_of_statements hown c]
  exact ⟨_, rfl, rfl, rfl⟩

end Memory

end Catalog

/-! ## Reconciling again -/

namespace Plan

open Catalog (Memory Operation Snapshot)
open Catalog.Operation (Repeatable applyAll applyAll_eq_self_iff applyAll_applyAll schema_applyAll)
open Settings (Options)

variable {options : Options} {m : Model} {ops : List Operation}

/-- The operations of a plan for a schema that does not exist undo nothing of each other. -/
theorem repeatable_of_plan (h : m.Sound) (hapart : m.HashesApart)
    (hplan : plan options m (.empty options.schema) = .ok ops) : Repeatable ops := by
  obtain ⟨hcalls, hturn⟩ := eachTurn_of_plan h hplan
  intro a ha b hb
  refine ⟨?_, ?_, ?_⟩
  · exact (coherent_wanted h hapart).kept b ((mem_wanted h).mpr (hcalls b hb)) a
      ((mem_wanted h).mpr (hcalls a ha))
  · intro table names names' htable htable'
    cases a with
    | createTable schema t columns comment =>
      cases b with
      | createTable schema' t' columns' comment' =>
        obtain ⟨rfl, rfl⟩ := Prod.mk.inj (Option.some.inj htable)
        obtain ⟨rfl, rfl⟩ := Prod.mk.inj (Option.some.inj htable')
        -- a table is created once, so that both operations are the same one
        have hsame := eq_of_wants hturn ha hb (f := .table _) trivial rfl rfl
        obtain ⟨-, -, rfl, -⟩ := Operation.createTable.inj hsame
        rfl
      | _ => cases htable'
    | _ => cases htable
  · cases b with
    | addColumn => exact absurd hb (addColumn_not_mem_plan h hplan rfl)
    | _ => rfl

/-- A plan for a schema that does not exist creates it. -/
theorem createSchema_mem_plan (h : m.Sound) (hplan : plan options m (.empty options.schema) = .ok ops) :
    .createSchema options.schema ∈ ops := by
  have hfirst : IsFirst (fun op : Operation => Catalog.Fact.schema ∈ op.effects) (wanted options m)
      (.createSchema options.schema) :=
    ⟨[], _, rfl, List.mem_singleton_self _, by simp⟩
  exact mem_taken_of_isFirst ((plan_ok_iff h).mp hplan).2
    (by simp [Snapshot.Shows, Snapshot.empty]) hfirst rfl

section Again

variable {c c' : Memory}

/-- A second run for the schema of the catalog finds nothing to do. -/
theorem reconcile_nothing (hm : m.Sound) (hapart : m.HashesApart)
    (h : c.reconcile options m = (c', .ok ops)) (hschema : options.schema = c.snapshot.schema) :
    c'.reconcile options m = (c', .ok []) := by
  obtain ⟨hplan, -, hsnapshot⟩ := Memory.reconcile_ok h
  rw [Memory.fetch, if_pos hschema] at hplan
  obtain ⟨hlimit, hsettle⟩ := (plan_ok_iff hm).mp hplan
  have hresumed := settle_resume (coherent_wanted hm hapart) hsettle ops.length
  rw [List.take_length, List.drop_length, ← hsnapshot] at hresumed
  have hstill : options.schema = c'.snapshot.schema := by rw [hschema, hsnapshot, schema_applyAll]
  have hagain : plan options m (c'.fetch options.schema) = .ok [] := by
    rw [Memory.fetch, if_pos hstill]
    exact (plan_ok_iff hm).mpr ⟨hlimit, hresumed⟩
  rw [Memory.reconcile, hagain]
  rfl

/-- A second run for another schema than that of the catalog carries all operations out again, which changes the
snapshot no further. -/
theorem reconcile_repeats (hm : m.Sound) (hapart : m.HashesApart)
    (h : c.reconcile options m = (c', .ok ops)) (hschema : options.schema ≠ c.snapshot.schema) :
    ops ≠ [] ∧
    (∃ c'', c'.reconcile options m = (c'', .ok ops) ∧ c''.operations = c'.operations ++ ops ∧
      c''.snapshot = c'.snapshot) ∧
    (c'.snapshot = c.snapshot ↔ ∀ op ∈ ops, op.Idle c.snapshot) := by
  obtain ⟨hplan, hstatements, hsnapshot⟩ := Memory.reconcile_ok h
  rw [Memory.fetch, if_neg hschema] at hplan
  have hrepeatable := repeatable_of_plan hm hapart hplan
  have hstill : options.schema ≠ c'.snapshot.schema := by rwa [hsnapshot, schema_applyAll]
  have hagain : plan options m (c'.fetch options.schema) = .ok ops := by
    rwa [Memory.fetch, if_neg hstill]
  obtain ⟨c'', hrun, hsecond, hgiven⟩ := Memory.exists_reconcile hagain hstatements
  refine ⟨List.ne_nil_of_mem (createSchema_mem_plan hm hplan), ⟨c'', hrun, hgiven, ?_⟩, ?_⟩
  · rw [hsecond, hsnapshot, applyAll_applyAll hrepeatable]
  · rw [hsnapshot, applyAll_eq_self_iff hrepeatable]

end Again

/-- A second run over a catalog in memory does nothing exactly when the schema of the options is that of the
catalog.  If it is another one, the first run carries out on the snapshot of the catalog what the other schema
needs, and the second run carries the same out again; the snapshot stays as it was only where all of this was
done in it already, and the second run does not change it any more. -/
theorem reconcile_again {d : Document} (hextract : extract d = .ok m) (hapart : m.HashesApart)
    {c c' : Memory} (h : c.reconcile options m = (c', .ok ops)) :
    ((∃ c'', c'.reconcile options m = (c'', .ok [])) ↔ options.schema = c.snapshot.schema) ∧
    (options.schema = c.snapshot.schema → c'.reconcile options m = (c', .ok [])) ∧
    (options.schema ≠ c.snapshot.schema →
      ops ≠ [] ∧
      (∃ c'', c'.reconcile options m = (c'', .ok ops) ∧ c''.operations = c'.operations ++ ops ∧
        c''.snapshot = c'.snapshot) ∧
      (c'.snapshot = c.snapshot ↔ ∀ op ∈ ops, op.Idle c.snapshot)) := by
  have hsound := extract_sound hextract
  refine ⟨⟨?_, fun hschema => ⟨c', reconcile_nothing hsound hapart h hschema⟩⟩,
    reconcile_nothing hsound hapart h, reconcile_repeats hsound hapart h⟩
  rintro ⟨c'', hnothing⟩
  by_contra hschema
  obtain ⟨hops, ⟨c₂, hrun, -⟩, -⟩ := reconcile_repeats hsound hapart h hschema
  rw [hrun] at hnothing
  exact hops (Except.ok.inj (Prod.mk.inj hnothing).2)

/-- A new catalog of the default schema. -/
def newCatalog : Memory where
  snapshot := .empty "public"

/-- A new catalog is brought into line with authors and profiles once. -/
theorem reconcile_again_profileModel :
    ∃ c' ops, newCatalog.reconcile {} profileModel = (c', .ok ops) ∧ ops ≠ [] ∧
      c'.reconcile {} profileModel = (c', .ok []) := by
  have hrun := eq_mk_ok_of_toOption (x := newCatalog.reconcile {} profileModel) (a := profilePlan)
    (by decide +kernel)
  exact ⟨_, _, hrun, by decide +kernel,
    (reconcile_again extract_profileDocument hashesApart_profileModel hrun).2.1 rfl⟩

/-- An entity with an identifier and nothing else. -/
def plainDocument : Document where
  types :=
    [ { kind := .object, name := "A", directives := [{ name := "entity" }]
        fields := [{ name := "id", type := { name := "ID", nullable := false } }] } ]

/-- The model of the entity. -/
def plainModel : Model where
  entities := [{ name := "A", fields := [{ name := "id", type := .scalar .id, nullable := false }] }]

/-- Options for another schema than that of a new catalog. -/
def otherSchema : Options where
  schema := "app"
  timestamps := false

/-- The plan for the entity in the other schema: the schema and one table. -/
def plainPlan : List Operation := (plan otherSchema plainModel (.empty "app")).toOption.getD []

/-- A run for one schema changes the snapshot of another one, and is made again in full. -/
theorem other_schema_changed :
    extract plainDocument = .ok plainModel ∧ plainModel.HashesApart ∧ plainPlan.length = 2 ∧
      ∃ c' c'', newCatalog.reconcile otherSchema plainModel = (c', .ok plainPlan) ∧
        c'.snapshot ≠ newCatalog.snapshot ∧
        c'.reconcile otherSchema plainModel = (c'', .ok plainPlan) := by
  have hrun := eq_mk_ok_of_toOption (x := newCatalog.reconcile otherSchema plainModel) (a := plainPlan)
    (by decide +kernel)
  have hagain := eq_mk_ok_of_toOption (a := plainPlan)
    (x := (newCatalog.reconcile otherSchema plainModel).1.reconcile otherSchema plainModel)
    (by decide +kernel)
  exact ⟨eq_ok_of_toOption (by decide +kernel), ⟨by decide +kernel, by decide +kernel⟩, by decide +kernel,
    _, _, hrun, by decide +kernel, hagain⟩

end Plan

end SchemaReconcile
