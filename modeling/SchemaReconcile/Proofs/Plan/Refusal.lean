import SchemaReconcile.Catalog.Session
import SchemaReconcile.Proofs.First
import SchemaReconcile.Proofs.Plan.Sound

/-!
# Refused plans

A plan is refused for one of two reasons: an entity declares too many indexes, or the type of an enumeration
has other labels than it should.  The second one is looked for in the predicted snapshot, but what is
predicted before never touches the labels of a type of its own (`labels?_advance`).  So where enumerations
have types of their own, the reason can be read off the snapshot (`settle_wanted_fault`), and the first entity
or enumeration that gives one is named (`plan_refused`).
-/

namespace SchemaReconcile

namespace Plan

open Catalog (Operation Snapshot Memory)
open Settings (Options)

/-- An entity declares more indexes than the options allow. -/
def OverLimit (options : Options) (e : Entity) : Prop := options.indexLimit < e.indexes.length

/-- The labels that the type of an enumeration has in place of its values. -/
def drift? (options : Options) (s : Snapshot) (n : Enumeration) : Option (List String) :=
  (s.labels? (Naming.enumTypeOf options.schema n.name)).filter fun live => live != n.values

/-- The type of an enumeration is there with labels that are not its values, in their order. -/
def Drifts (options : Options) (s : Snapshot) (n : Enumeration) : Prop :=
  ∃ live, s.labels? (Naming.enumTypeOf options.schema n.name) = some live ∧ live ≠ n.values

/-- The fault of the first enumeration whose type has other labels. -/
def driftFault? (options : Options) (enums : List Enumeration) (s : Snapshot) : Option Fault :=
  enums.findSome? fun n => (drift? options s n).map fun live => .enumDrift n.name live n.values

variable {options : Options} {m : Model} {s : Snapshot}

/-! ## Labels -/

/-- The labels of a type change only when this type is created. -/
theorem labels?_advance {op : Operation} {type : String}
    (h : ∀ schema labels name, op ≠ .createEnumType schema type labels name) :
    (advance op s).labels? type = s.labels? type := by
  unfold advance
  split
  · cases op with
    | createEnumType schema type' labels name =>
      have hne : type ≠ type' := by
        rintro rfl
        exact h schema labels name rfl
      simp [Operation.apply, Snapshot.labels?, Catalog.lookup_put, hne]
    | createTable schema table columns comment =>
      simp only [Operation.apply]
      split <;> rfl
    | _ => rfl
  · rfl

/-- Settling goes on behind an operation without a conflict. -/
theorem settle_cons_fault {op : Operation} (h : op.conflict? s = none) (rest : List Operation) :
    (settle (op :: rest) s).fault = (settle rest (advance op s)).fault := by
  cases hpending : op.pending s with
  | true => simp [settle_cons_taken h hpending, advance, hpending]
  | false => simp [settle_cons_skipped h hpending, advance, hpending]

/-- Where the types of enumerations are different, settling them fails for the first one that has other
labels in a snapshot with the same labels for these types. -/
theorem settle_enums_fault {enums : List Enumeration}
    (h : (enums.map fun n => Naming.enumTypeOf options.schema n.name).Nodup) {s₀ : Snapshot}
    (hsame : ∀ n ∈ enums, s.labels? (Naming.enumTypeOf options.schema n.name) =
      s₀.labels? (Naming.enumTypeOf options.schema n.name)) :
    (settle (enums.flatMap (enumOperations options.schema)) s).fault =
      driftFault? options enums s₀ := by
  induction enums generalizing s with
  | nil => rfl
  | cons n rest ih =>
    obtain ⟨hfresh, hrest⟩ := List.nodup_cons.mp h
    have hconflict : (Operation.createEnumType options.schema
        (Naming.enumTypeOf options.schema n.name) n.values n.name).conflict? s =
        drift? options s₀ n := by
      rw [Operation.conflict?, hsame n List.mem_cons_self]
      rfl
    rw [List.flatMap_cons, enumOperations, List.cons_append, driftFault?, List.findSome?_cons]
    cases hdrift : drift? options s₀ n with
    | some live =>
      rw [hdrift] at hconflict
      rw [settle_cons_conflict hconflict]
      rfl
    | none =>
      rw [hdrift] at hconflict
      rw [settle_cons_fault hconflict, List.cons_append, settle_cons_fault rfl, List.nil_append]
      -- neither operation of this enumeration is about the type of a later one
      refine ih hrest ?_
      intro n' hn'
      have hne : Naming.enumTypeOf options.schema n.name ≠
          Naming.enumTypeOf options.schema n'.name :=
        fun heq => hfresh (List.mem_map.mpr ⟨n', hn', heq.symm⟩)
      rw [labels?_advance (by simp), labels?_advance (by simp [hne])]
      exact hsame n' (List.mem_cons_of_mem _ hn')

/-- Settling the operations of a model fails as the types of its enumerations do. -/
theorem settle_wanted_fault
    (h : (m.enums.map fun n => Naming.enumTypeOf options.schema n.name).Nodup) (s : Snapshot) :
    (settle (wanted options m) s).fault = driftFault? options m.enums s := by
  have hsound := outline_sound options m (compiledEntities options m)
  have htypes : (settle (outlineOf options m).types s).fault = driftFault? options m.enums s := by
    refine (settle_cons_fault rfl _).trans (settle_enums_fault h ?_)
    intro n hn
    rw [labels?_advance (by simp)]
  by_cases hfault : (settle (outlineOf options m).types s).fault = none
  · rw [wanted, Outline.sorted, settle_append _ hfault, ← htypes, hfault]
    refine settle_fault_eq_none ?_ _
    simp only [List.forall_mem_append, List.forall_mem_map, List.mem_flatMap]
    refine ⟨fun op hop => peaceful_of_phase (by simp [hsound.tables op hop]),
      fun part hpart => peaceful_of_phase
        (by simp [phase_of_isKey (hsound.relations part hpart).isKey]), ?_⟩
    rintro op ⟨part, hpart, hop⟩
    exact peaceful_of_phase (by simp [(hsound.relations part hpart).deferred op hop])
  · rw [wanted, Outline.sorted, settle_append_of_fault _ hfault, htypes]

/-! ## Reasons -/

/-- The limit fault is about the first entity that declares too many indexes. -/
theorem indexLimitFault?_eq_some {fault : Fault} :
    indexLimitFault? options m = some fault ↔ ∃ e, IsFirst (OverLimit options) m.entities e ∧
      fault = .tooManyIndexes e.name e.indexes.length options.indexLimit := by
  rw [indexLimitFault?, Option.map_eq_some_iff]
  constructor
  · rintro ⟨e, he, rfl⟩
    obtain ⟨hover, before, after, hsplit, hbefore⟩ := List.find?_eq_some_iff_append.mp he
    exact ⟨e, ⟨before, after, hsplit, by simpa [OverLimit] using hover,
      by simpa [OverLimit] using hbefore⟩, rfl⟩
  · rintro ⟨e, ⟨before, after, hsplit, hover, hbefore⟩, rfl⟩
    refine ⟨e, List.find?_eq_some_iff_append.mpr
      ⟨by simpa [OverLimit] using hover, before, after, hsplit, ?_⟩, rfl⟩
    simpa [OverLimit] using hbefore

/-- The labels that a type has in place of the values of its enumeration. -/
theorem drift?_eq_some {n : Enumeration} {live : List String} :
    drift? options s n = some live ↔
      s.labels? (Naming.enumTypeOf options.schema n.name) = some live ∧ live ≠ n.values := by
  simp [drift?, Option.filter_eq_some_iff]

/-- An enumeration without other labels does not drift. -/
theorem drift?_eq_none {n : Enumeration} : drift? options s n = none ↔ ¬ Drifts options s n := by
  rw [Option.eq_none_iff_forall_ne_some]
  constructor
  · rintro hnone ⟨live, hlive⟩
    exact hnone live (drift?_eq_some.mpr hlive)
  · exact fun hnone live hlive => hnone ⟨live, drift?_eq_some.mp hlive⟩

/-- The drift fault is about the first enumeration whose type has other labels. -/
theorem driftFault?_eq_some {enums : List Enumeration} {fault : Fault} :
    driftFault? options enums s = some fault ↔ ∃ n live, IsFirst (Drifts options s) enums n ∧
      s.labels? (Naming.enumTypeOf options.schema n.name) = some live ∧
      fault = .enumDrift n.name live n.values := by
  rw [driftFault?, List.findSome?_eq_some_iff]
  simp only [Option.map_eq_some_iff, Option.map_eq_none_iff, drift?_eq_none]
  constructor
  · rintro ⟨before, n, after, hsplit, ⟨live, hlive, rfl⟩, hbefore⟩
    obtain ⟨hlabels, hne⟩ := drift?_eq_some.mp hlive
    exact ⟨n, live, ⟨before, after, hsplit, ⟨live, hlabels, hne⟩, hbefore⟩, hlabels, rfl⟩
  · rintro ⟨n, live, ⟨before, after, hsplit, ⟨live', hlabels', hne⟩, hbefore⟩, hlabels, rfl⟩
    obtain rfl : live' = live := Option.some.inj (hlabels'.symm.trans hlabels)
    exact ⟨before, n, after, hsplit, ⟨live', drift?_eq_some.mpr ⟨hlabels, hne⟩, rfl⟩, hbefore⟩

/-- There is a limit fault exactly when some entity declares too many indexes. -/
theorem exists_indexLimitFault :
    (∃ fault, indexLimitFault? options m = some fault) ↔ ∃ e ∈ m.entities, OverLimit options e := by
  rw [← exists_isFirst]
  constructor
  · rintro ⟨fault, h⟩
    obtain ⟨e, he, -⟩ := indexLimitFault?_eq_some.mp h
    exact ⟨e, he⟩
  · rintro ⟨e, he⟩
    exact ⟨_, indexLimitFault?_eq_some.mpr ⟨e, he, rfl⟩⟩

/-- There is a drift fault exactly when the type of some enumeration has other labels. -/
theorem exists_driftFault {enums : List Enumeration} :
    (∃ fault, driftFault? options enums s = some fault) ↔ ∃ n ∈ enums, Drifts options s n := by
  rw [← exists_isFirst]
  constructor
  · rintro ⟨fault, h⟩
    obtain ⟨n, live, hn, -⟩ := driftFault?_eq_some.mp h
    exact ⟨n, hn⟩
  · rintro ⟨n, hn⟩
    obtain ⟨before, after, -, ⟨live, hlabels, -⟩, -⟩ := id hn
    exact ⟨_, driftFault?_eq_some.mpr ⟨n, live, hn, hlabels, rfl⟩⟩

/-- A plan for a sound model fails for a limit, or else for a drift. -/
theorem plan_error_iff (h : m.Sound)
    (htypes : (m.enums.map fun n => Naming.enumTypeOf options.schema n.name).Nodup) {fault : Fault} :
    plan options m s = .error fault ↔ indexLimitFault? options m = some fault ∨
      indexLimitFault? options m = none ∧ driftFault? options m.enums s = some fault := by
  rw [plan_eq_settle (agenda_fault_of_sound h options)]
  cases indexLimitFault? options m with
  | some limit => simp
  | none =>
    rw [Progress.all, settle_wanted_fault htypes]
    cases driftFault? options m.enums s <;> simp

/-- There is no plan for a sound model exactly when some entity declares too many indexes or the type of some
enumeration has other labels. -/
theorem exists_fault_iff (h : m.Sound)
    (htypes : (m.enums.map fun n => Naming.enumTypeOf options.schema n.name).Nodup) :
    (∃ fault, plan options m s = .error fault) ↔
      (∃ e ∈ m.entities, OverLimit options e) ∨ ∃ n ∈ m.enums, Drifts options s n := by
  rw [← exists_indexLimitFault, ← exists_driftFault]
  simp only [plan_error_iff h htypes]
  constructor
  · rintro ⟨fault, hover | ⟨-, hdrift⟩⟩
    · exact .inl ⟨fault, hover⟩
    · exact .inr ⟨fault, hdrift⟩
  · rintro (⟨fault, hover⟩ | ⟨fault, hdrift⟩)
    · exact ⟨fault, .inl hover⟩
    · cases hlimit : indexLimitFault? options m with
      | some limit => exact ⟨limit, .inl rfl⟩
      | none => exact ⟨fault, .inr ⟨rfl, hdrift⟩⟩

/-- A model can be planned for in a schema that does not exist, within the index limit and with enumerations that
have types of their own. -/
theorem exists_plan_empty (h : m.Sound) (hlimit : ∀ e ∈ m.entities, ¬ OverLimit options e)
    (htypes : (m.enums.map fun n => Naming.enumTypeOf options.schema n.name).Nodup) :
    ∃ ops, plan options m (.empty options.schema) = .ok ops := by
  cases hplan : plan options m (.empty options.schema) with
  | ok ops => exact ⟨ops, rfl⟩
  | error fault =>
    exfalso
    rcases (plan_error_iff h htypes).mp hplan with hover | ⟨-, hdrift⟩
    · obtain ⟨e, he, hover⟩ := exists_indexLimitFault.mp ⟨fault, hover⟩
      exact hlimit e he hover
    · obtain ⟨n, -, live, hlive, -⟩ := exists_driftFault.mp ⟨fault, hdrift⟩
      simp [Snapshot.labels?, Snapshot.empty] at hlive

/-! ## Runs that are refused -/

/-- A catalog in memory that cannot be planned for stays as it is. -/
theorem memory_of_plan_error {c : Memory} {fault : Fault}
    (h : plan options m (c.fetch options.schema) = .error fault) :
    c.reconcile options m = (c, .error (.plan fault)) := by
  rw [Memory.reconcile, h]

/-- A server that cannot be planned for is asked, and told nothing else. -/
theorem session_of_plan_error {server : Catalog.Server} {fault : Fault}
    (h : plan options m (server.rows.toSnapshot options.schema) = .error fault) :
    (Catalog.Session.reconcile server options m).result = .error (.plan fault) ∧
      ∀ event ∈ (Catalog.Session.reconcile server options m).events,
        ∃ query schema, event = .query query schema := by
  have hplan : Catalog.Session.planOn server options m = .error (.plan fault) := by
    rw [Catalog.Session.planOn, h]
    rfl
  rw [Catalog.Session.reconcile, hplan]
  refine ⟨rfl, ?_⟩
  intro event hevent
  obtain ⟨query, -, rfl⟩ := List.mem_map.mp hevent
  exact ⟨query, options.schema, rfl⟩

/-- A plan is refused exactly when an entity declares too many indexes or the type of an enumeration has
other labels; the fault names the first such entity, or else the first such enumeration.  Nothing else can
fail, and a run that is refused changes nothing. -/
theorem plan_refused {d : Document} (hextract : extract d = .ok m)
    (htypes : (m.enums.map fun n => Naming.enumTypeOf options.schema n.name).Nodup) :
    (∀ s, (∃ fault, plan options m s = .error fault) ↔
      (∃ e ∈ m.entities, OverLimit options e) ∨ ∃ n ∈ m.enums, Drifts options s n) ∧
    (∀ s fault, plan options m s = .error fault →
      (∃ e, IsFirst (OverLimit options) m.entities e ∧
        fault = .tooManyIndexes e.name e.indexes.length options.indexLimit) ∨
      (∀ e ∈ m.entities, ¬ OverLimit options e) ∧ ∃ n live, IsFirst (Drifts options s) m.enums n ∧
        s.labels? (Naming.enumTypeOf options.schema n.name) = some live ∧
        fault = .enumDrift n.name live n.values) ∧
    (agenda options m).fault = none ∧
    (∀ e ∈ m.entities, ∃ c key, e.compile (targetOf options m) = .ok c ∧ c.primaryKey? = some key) ∧
    (∀ (c : Memory) (fault : Fault), plan options m (c.fetch options.schema) = .error fault →
      c.reconcile options m = (c, .error (.plan fault))) ∧
    ∀ (server : Catalog.Server) (fault : Fault),
      plan options m (server.rows.toSnapshot options.schema) = .error fault →
        (Catalog.Session.reconcile server options m).result = .error (.plan fault) ∧
        ∀ event ∈ (Catalog.Session.reconcile server options m).events,
          ∃ query schema, event = .query query schema := by
  have hsound := extract_sound hextract
  refine ⟨fun s => exists_fault_iff hsound htypes, ?_, agenda_fault_of_sound hsound options, ?_,
    fun c fault h => memory_of_plan_error h, fun server fault h => session_of_plan_error h⟩
  · intro s fault hplan
    rcases (plan_error_iff hsound htypes).mp hplan with hover | ⟨hnone, hdrift⟩
    · exact .inl (indexLimitFault?_eq_some.mp hover)
    · refine .inr ⟨?_, driftFault?_eq_some.mp hdrift⟩
      intro e he hover
      obtain ⟨limit, hlimit⟩ := exists_indexLimitFault.mpr ⟨e, he, hover⟩
      rw [hnone] at hlimit
      cases hlimit
  · intro e he
    obtain ⟨c, hc⟩ := (hsound.entity e he).compiles (targetOf options m) rfl
    obtain ⟨key, -, hkey⟩ := (hsound.entity e he).exists_primaryKey hc
    exact ⟨c, key, hc, hkey⟩

/-- A schema where the labels of the mood stand in another order. -/
def reordered : Snapshot where
  schema := "public"
  schemaExists := true
  enums := [(Naming.enumTypeOf "public" "Mood", ["BUSY", "CALM"])]

/-- Authors and profiles cannot be planned for where the labels of the mood stand in another order. -/
theorem plan_refused_reordered :
    (profileModel.enums.map fun n => Naming.enumTypeOf "public" n.name).Nodup ∧
      ∃ fault, plan {} profileModel reordered = .error fault := by
  have htypes : (profileModel.enums.map fun n => Naming.enumTypeOf "public" n.name).Nodup := by
    decide +kernel
  refine ⟨htypes, ((@plan_refused {} profileModel _ extract_profileDocument htypes).1 _).mpr ?_⟩
  exact .inr ⟨⟨"Mood", ["CALM", "BUSY"], none⟩, by decide +kernel, ["BUSY", "CALM"],
    by decide +kernel, by decide⟩

end Plan

end SchemaReconcile
