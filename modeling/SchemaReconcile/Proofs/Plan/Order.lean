import SchemaReconcile.Proofs.Plan.Settle

/-!
# Sorting by phase

A plan is settled in one order and carried out in another.  The two agree because the list that is settled
is sorted already, but for one thing: the foreign keys of later relations stand behind the deferred
operations of earlier ones.

A deferred operation comments on a constraint or creates an index that keeps a column unique.  Where the
constraint that it comments on is there (`OnPresent`), it can change places with a foreign key: neither
makes the other one pending or settled, and the snapshot after both is the same
(`advance_key_comm`).  By induction deferred operations move behind any list of foreign keys
(`settle_keys_comm`), and so behind those of all later relations (`settle_relations`).
-/

namespace SchemaReconcile.Plan

open Catalog (Operation Snapshot Phase)
open Catalog.Operation (applyAll)

/-! ## Operations without a conflict -/

/-- The snapshot after an operation that is carried out only if it is pending. -/
def advance (op : Operation) (s : Snapshot) : Snapshot :=
  if op.pending s then op.apply s else s

/-- The snapshot after operations that are carried out only if they are pending. -/
def after (ops : List Operation) (s : Snapshot) : Snapshot :=
  applyAll (settle ops s).done s

/-- An operation that can have no conflict: it creates no enum type. -/
def Peaceful (op : Operation) : Prop :=
  ∀ s, op.conflict? s = none

/-- An operation of a later phase than the first can have no conflict. -/
theorem peaceful_of_phase {op : Operation} (h : op.phase ≠ .types) : Peaceful op := by
  intro s
  cases op <;> first | rfl | exact absurd rfl h

/-- What is taken of a list: the first operation if it is pending, and then the others. -/
theorem settle_cons_done {op : Operation} (hop : Peaceful op) (rest : List Operation) (s : Snapshot) :
    (settle (op :: rest) s).done =
      (if op.pending s then [op] else []) ++ (settle rest (advance op s)).done := by
  cases hpending : op.pending s with
  | true => simp [settle_cons_taken (hop s) hpending, advance, hpending]
  | false => simp [settle_cons_skipped (hop s) hpending, advance, hpending]

/-- The snapshot after a list is that after the others, once the first one had its turn. -/
theorem after_cons {op : Operation} (hop : Peaceful op) (rest : List Operation) (s : Snapshot) :
    after (op :: rest) s = after rest (advance op s) := by
  cases hpending : op.pending s with
  | true => simp [after, settle_cons_taken (hop s) hpending, advance, hpending, applyAll]
  | false => simp [after, settle_cons_skipped (hop s) hpending, advance, hpending]

/-- Settling a first part without a fault, and then the others. -/
theorem settle_append {xs : List Operation} {s : Snapshot} (ys : List Operation)
    (h : (settle xs s).fault = none) :
    settle (xs ++ ys) s =
      ⟨(settle xs s).done ++ (settle ys (after xs s)).done, (settle ys (after xs s)).fault⟩ := by
  induction xs generalizing s with
  | nil => simp [settle, after, applyAll]
  | cons op rest ih =>
    cases hconflict : op.conflict? s with
    | some live => simp [settle_cons_conflict hconflict] at h
    | none =>
      cases hpending : op.pending s with
      | true =>
        rw [settle_cons_taken hconflict hpending] at h
        rw [List.cons_append, settle_cons_taken hconflict hpending, ih h]
        simp [after, settle_cons_taken hconflict hpending, applyAll]
      | false =>
        rw [settle_cons_skipped hconflict hpending] at h
        rw [List.cons_append, settle_cons_skipped hconflict hpending, ih h]
        simp [after, settle_cons_skipped hconflict hpending]

/-- A fault in a first part ends settling. -/
theorem settle_append_of_fault {xs : List Operation} {s : Snapshot} (ys : List Operation)
    (h : (settle xs s).fault ≠ none) : settle (xs ++ ys) s = settle xs s := by
  induction xs generalizing s with
  | nil => exact absurd rfl h
  | cons op rest ih =>
    cases hconflict : op.conflict? s with
    | some live => simp [settle_cons_conflict hconflict]
    | none =>
      cases hpending : op.pending s with
      | true =>
        rw [settle_cons_taken hconflict hpending] at h
        simp [settle_cons_taken hconflict hpending, ih h]
      | false =>
        rw [settle_cons_skipped hconflict hpending] at h
        simp [settle_cons_skipped hconflict hpending, ih h]

/-- Operations without conflicts are settled without a fault. -/
theorem settle_fault_eq_none {ops : List Operation} (hops : ∀ op ∈ ops, Peaceful op) (s : Snapshot) :
    (settle ops s).fault = none := by
  induction ops generalizing s with
  | nil => rfl
  | cons op rest ih =>
    have hconflict : op.conflict? s = none := hops op List.mem_cons_self s
    have hrest : ∀ a ∈ rest, Peaceful a := fun a ha => hops a (List.mem_cons_of_mem _ ha)
    cases hpending : op.pending s with
    | true => simp [settle_cons_taken hconflict hpending, ih hrest]
    | false => simp [settle_cons_skipped hconflict hpending, ih hrest]

/-- What is taken of two parts without conflicts. -/
theorem settle_append_done {xs : List Operation} (h : ∀ op ∈ xs, Peaceful op) (ys : List Operation)
    (s : Snapshot) :
    (settle (xs ++ ys) s).done = (settle xs s).done ++ (settle ys (after xs s)).done := by
  rw [settle_append ys (settle_fault_eq_none h s)]

/-- The snapshot after two parts, when the first one is settled without a fault. -/
theorem after_append_of_fault_eq_none {xs : List Operation} {s : Snapshot} (h : (settle xs s).fault = none)
    (ys : List Operation) : after (xs ++ ys) s = after ys (after xs s) := by
  unfold after
  rw [settle_append ys h]
  simp [applyAll, after]

/-- The snapshot after two parts without conflicts. -/
theorem after_append {xs : List Operation} (h : ∀ op ∈ xs, Peaceful op) (ys : List Operation)
    (s : Snapshot) : after (xs ++ ys) s = after ys (after xs s) :=
  after_append_of_fault_eq_none (settle_fault_eq_none h s) ys

/-! ## Foreign keys and deferred operations -/

/-- An operation is a foreign key. -/
def IsKey : Operation → Prop
  | .addForeignKey .. => True
  | _ => False

/-- The constraint that an operation comments on, if it does, is there. -/
def OnPresent : Operation → Snapshot → Prop
  | .commentOnConstraint _ table constraint _, s => s.hasConstraint table constraint = true
  | _, _ => True

/-- A foreign key belongs to the second phase. -/
theorem phase_of_isKey {op : Operation} (h : IsKey op) : op.phase = .tables := by
  cases op <;> first | rfl | exact absurd h id

/-- An operation never removes a constraint. -/
theorem onPresent_advance {b : Operation} {s : Snapshot} (a : Operation) (h : OnPresent b s) :
    OnPresent b (advance a s) := by
  unfold advance
  cases hpending : a.pending s with
  | false => exact h
  | true =>
    cases b with
    | commentOnConstraint schema table constraint comment =>
      exact (Catalog.Operation.shows_apply (.constraint table constraint) hpending).mpr
        (.inl ⟨h, Catalog.Operation.not_overwrites_of_lasting trivial⟩)
    | _ => exact trivial

/-- A deferred operation does not make a foreign key pending or settled. -/
theorem key_pending_apply {k b : Operation} {s : Snapshot} (hk : IsKey k) (hb : b.phase = .deferred)
    (hp : OnPresent b s) : k.pending (b.apply s) = k.pending s := by
  cases k with
  | addForeignKey schema table constraint column refTable refColumn onDelete =>
    cases b with
    | createIndex => rfl
    | commentOnConstraint schema' table' constraint' comment =>
      have hthere : (s.constraints.lookup (table', constraint')).isSome := hp
      by_cases heq : (table, constraint) = (table', constraint')
      · obtain ⟨rfl, rfl⟩ := Prod.mk.inj heq
        simp [Operation.pending, Operation.apply, Snapshot.hasConstraint, Catalog.lookup_put, hthere]
      · simp [Operation.pending, Operation.apply, Snapshot.hasConstraint, Catalog.lookup_put, heq]
    | _ => cases hb
  | _ => exact absurd hk id

/-- A foreign key does not make a deferred operation pending or settled. -/
theorem deferred_pending_apply {k b : Operation} {s : Snapshot} (hk : IsKey k)
    (hb : b.phase = .deferred) : b.pending (k.apply s) = b.pending s := by
  cases k with
  | addForeignKey schema table constraint column refTable refColumn onDelete =>
    cases b with
    | createIndex => rfl
    | commentOnConstraint schema' table' constraint' comment =>
      by_cases heq : (table', constraint') = (table, constraint)
      · obtain ⟨rfl, rfl⟩ := Prod.mk.inj heq
        cases hl : s.constraints.lookup (table', constraint') <;>
          simp [Operation.pending, Operation.apply, Snapshot.constraintComment?,
            Catalog.lookup_putNew, hl]
      · simp [Operation.pending, Operation.apply, Snapshot.constraintComment?,
          Catalog.lookup_putNew, heq]
    | _ => cases hb
  | _ => exact absurd hk id

/-- The snapshot after a foreign key and a deferred operation does not depend on their order. -/
theorem apply_key_comm {k b : Operation} {s : Snapshot} (hk : IsKey k) (hb : b.phase = .deferred)
    (hp : OnPresent b s) : b.apply (k.apply s) = k.apply (b.apply s) := by
  cases k with
  | addForeignKey schema table constraint column refTable refColumn onDelete =>
    cases b with
    | createIndex => rfl
    | commentOnConstraint schema' table' constraint' comment =>
      simp only [Operation.apply]
      rw [Catalog.put_putNew_comm _ _ _ hp]
    | _ => cases hb
  | _ => exact absurd hk id

/-- A foreign key and a deferred operation may have their turns in either order. -/
theorem advance_key_comm {k b : Operation} {s : Snapshot} (hk : IsKey k) (hb : b.phase = .deferred)
    (hp : OnPresent b s) :
    k.pending (advance b s) = k.pending s ∧ b.pending (advance k s) = b.pending s ∧
      advance b (advance k s) = advance k (advance b s) := by
  have hkey : k.pending (advance b s) = k.pending s := by
    unfold advance
    cases b.pending s with
    | true => exact key_pending_apply hk hb hp
    | false => rfl
  have hlate : b.pending (advance k s) = b.pending s := by
    unfold advance
    cases k.pending s with
    | true => exact deferred_pending_apply hk hb
    | false => rfl
  refine ⟨hkey, hlate, ?_⟩
  rw [advance, hlate, advance, advance, hkey, advance]
  cases b.pending s <;> cases k.pending s
  · rfl
  · rfl
  · rfl
  · exact apply_key_comm hk hb hp

/-- Foreign keys leave a deferred operation as it is, and it leaves them as they are. -/
theorem advance_keys_comm {b : Operation} (hb : b.phase = .deferred) {keys : List Operation}
    (hkeys : ∀ k ∈ keys, IsKey k) {s : Snapshot} (hp : OnPresent b s) :
    (settle keys (advance b s)).done = (settle keys s).done ∧
      b.pending (after keys s) = b.pending s ∧
      after keys (advance b s) = advance b (after keys s) ∧ OnPresent b (after keys s) := by
  induction keys generalizing s with
  | nil => exact ⟨rfl, rfl, rfl, hp⟩
  | cons k rest ih =>
    have hk : IsKey k := hkeys k List.mem_cons_self
    have hpeace : Peaceful k := peaceful_of_phase (by simp [phase_of_isKey hk])
    obtain ⟨hkey, hlate, hcomm⟩ := advance_key_comm hk hb hp
    obtain ⟨hdone, hpending, hafter, hpresent⟩ :=
      ih (fun a ha => hkeys a (List.mem_cons_of_mem _ ha)) (onPresent_advance k hp)
    rw [hcomm] at hdone hafter
    refine ⟨?_, ?_, ?_, ?_⟩
    · rw [settle_cons_done hpeace, settle_cons_done hpeace, hkey, hdone]
    · rw [after_cons hpeace, hpending, hlate]
    · rw [after_cons hpeace, after_cons hpeace, hafter]
    · rwa [after_cons hpeace]

/-- Deferred operations and foreign keys may have their turns in either order. -/
theorem settle_keys_comm {late keys : List Operation} (hlate : ∀ b ∈ late, b.phase = .deferred)
    (hkeys : ∀ k ∈ keys, IsKey k) {s : Snapshot} (hp : ∀ b ∈ late, OnPresent b s) :
    (settle late (after keys s)).done = (settle late s).done ∧
      (settle keys (after late s)).done = (settle keys s).done ∧
      after late (after keys s) = after keys (after late s) := by
  induction late generalizing s with
  | nil => exact ⟨rfl, rfl, rfl⟩
  | cons b rest ih =>
    have hb : b.phase = .deferred := hlate b List.mem_cons_self
    have hpeace : Peaceful b := peaceful_of_phase (by simp [hb])
    obtain ⟨hdone, hpending, hafter, -⟩ := advance_keys_comm hb hkeys (hp b List.mem_cons_self)
    obtain ⟨hrest, hkeysDone, hcomm⟩ :=
      ih (s := advance b s) (fun a ha => hlate a (List.mem_cons_of_mem _ ha))
        (fun a ha => onPresent_advance b (hp a (List.mem_cons_of_mem _ ha)))
    rw [hafter] at hrest hcomm
    refine ⟨?_, ?_, ?_⟩
    · rw [settle_cons_done hpeace, settle_cons_done hpeace, hpending, hrest]
    · rw [after_cons hpeace, hkeysDone, hdone]
    · rw [after_cons hpeace, after_cons hpeace, hcomm]

/-! ## Relations -/

/-- The operations of a relation: its foreign key, and what is deferred. -/
structure RelationPart where
  key : Operation
  late : List Operation

namespace RelationPart

/-- All operations of a relation, the foreign key first. -/
def operations (part : RelationPart) : List Operation := part.key :: part.late

/-- The deferred operations of a relation are about its own foreign key. -/
structure Sound (part : RelationPart) : Prop where
  isKey : IsKey part.key
  deferred : ∀ b ∈ part.late, b.phase = .deferred
  onPresent : ∀ b ∈ part.late, ∀ s, OnPresent b (advance part.key s)

end RelationPart

/-- Operations of one phase are kept or left out together when that phase or another one is picked. -/
theorem filter_phase_of_forall {p q : Phase} {ops : List Operation} (h : ∀ op ∈ ops, op.phase = p) :
    ops.filter (fun op => op.phase == q) = if p = q then ops else [] := by
  split
  · next hpq =>
    rw [List.filter_eq_self]
    intro op hop
    simp [h op hop, hpq]
  · next hpq =>
    rw [List.filter_eq_nil_iff]
    intro op hop
    simp [h op hop, hpq]

/-- Settling relations one by one takes the same operations as settling their foreign keys first and what
is deferred then, and ends in the same snapshot. -/
theorem settle_relations {parts : List RelationPart} (h : ∀ p ∈ parts, p.Sound) (s : Snapshot) :
    let all := parts.flatMap RelationPart.operations
    let keys := parts.map RelationPart.key
    let late := parts.flatMap RelationPart.late
    (settle keys s).done = (settle all s).done.filter (fun op => op.phase == .tables) ∧
      (settle late (after keys s)).done =
        (settle all s).done.filter (fun op => op.phase == .deferred) ∧
      after late (after keys s) = after all s := by
  induction parts generalizing s with
  | nil => exact ⟨rfl, rfl, rfl⟩
  | cons part rest ih =>
    have hpart := h part List.mem_cons_self
    have hrest : ∀ p ∈ rest, p.Sound := fun p hp => h p (List.mem_cons_of_mem _ hp)
    have hkeyPeace : Peaceful part.key :=
      peaceful_of_phase (by simp [phase_of_isKey hpart.isKey])
    have hlatePeace : ∀ b ∈ part.late, Peaceful b := fun b hb =>
      peaceful_of_phase (by simp [hpart.deferred b hb])
    have hkeys : ∀ k ∈ rest.map RelationPart.key, IsKey k := by
      intro k hk
      obtain ⟨p, hp, rfl⟩ := List.mem_map.mp hk
      exact (hrest p hp).isKey
    -- the deferred operations of this relation move behind the foreign keys of the others
    obtain ⟨hlateDone, hkeysDone, hcomm⟩ := settle_keys_comm hpart.deferred hkeys
      (s := advance part.key s) fun b hb => hpart.onPresent b hb s
    obtain ⟨ihKeys, ihLate, ihAfter⟩ := ih hrest (after part.late (advance part.key s))
    have hkeyPhase : ∀ op ∈ (if part.key.pending s then [part.key] else []), op.phase = .tables := by
      intro op hop
      split at hop
      · rw [List.mem_singleton.mp hop]
        exact phase_of_isKey hpart.isKey
      · cases hop
    have hlatePhase : ∀ op ∈ (settle part.late (advance part.key s)).done, op.phase = .deferred :=
      fun op hop => hpart.deferred op ((settle_sublist _ _).subset hop)
    simp only [List.flatMap_cons, List.map_cons, RelationPart.operations, List.cons_append]
    rw [settle_cons_done hkeyPeace, settle_cons_done hkeyPeace, after_cons hkeyPeace,
      after_cons hkeyPeace, settle_append_done hlatePeace, settle_append_done hlatePeace,
      after_append hlatePeace, after_append hlatePeace, hlateDone, hcomm]
    simp only [List.filter_append, filter_phase_of_forall hkeyPhase,
      filter_phase_of_forall hlatePhase]
    refine ⟨?_, ?_, ihAfter⟩
    · rw [← hkeysDone]
      simpa using ihKeys
    · simpa using ihLate

/-! ## Outlines -/

/-- The operations of an agenda, those of relations apart from the others. -/
structure Outline where
  types : List Operation
  tables : List Operation
  relations : List RelationPart

namespace Outline

/-- All operations in the order of the agenda, relation by relation. -/
def operations (w : Outline) : List Operation :=
  w.types ++ (w.tables ++ w.relations.flatMap RelationPart.operations)

/-- All operations in the order in which they are carried out: what relations defer comes last. -/
def sorted (w : Outline) : List Operation :=
  w.types ++ (w.tables ++ (w.relations.map RelationPart.key ++ w.relations.flatMap RelationPart.late))

/-- The operations of an outline stand in the part of their phase. -/
structure Sound (w : Outline) : Prop where
  types : ∀ op ∈ w.types, op.phase = .types
  tables : ∀ op ∈ w.tables, op.phase = .tables
  relations : ∀ p ∈ w.relations, p.Sound

end Outline

/-- The operations for the entities have no conflict. -/
theorem Outline.Sound.peaceful_tables {w : Outline} (h : w.Sound) : ∀ op ∈ w.tables, Peaceful op :=
  fun op hop => peaceful_of_phase (by simp [h.tables op hop])

/-- The foreign keys of the relations have no conflict. -/
theorem Outline.Sound.peaceful_keys {w : Outline} (h : w.Sound) :
    ∀ op ∈ w.relations.map RelationPart.key, Peaceful op := by
  intro op hop
  obtain ⟨part, hpart, rfl⟩ := List.mem_map.mp hop
  exact peaceful_of_phase (by simp [phase_of_isKey (h.relations part hpart).isKey])

/-- Operations of a relation belong to the second or the third phase. -/
theorem RelationPart.Sound.phase_ne_types {part : RelationPart} (h : part.Sound) :
    ∀ op ∈ part.operations, op.phase ≠ .types := by
  intro op hop
  rcases List.mem_cons.mp hop with rfl | hop
  · rw [phase_of_isKey h.isKey]
    exact Phase.noConfusion
  · rw [h.deferred op hop]
    exact Phase.noConfusion

/-- Sorting operations that are apart by phase already. -/
theorem byPhase_append {xs : List Operation} (ys zs : List Operation)
    (hx : ∀ op ∈ xs, op.phase = .types) (hy : ∀ op ∈ ys, op.phase = .tables) (hz : ∀ op ∈ zs, op.phase ≠ .types) :
    byPhase (xs ++ (ys ++ zs)) = xs ++ (ys ++ (zs.filter (fun op => op.phase == .tables) ++
      zs.filter fun op => op.phase == .deferred)) := by
  have hnone : zs.filter (fun op => op.phase == .types) = [] := by
    rw [List.filter_eq_nil_iff]
    intro op hop
    simpa using hz op hop
  simp [byPhase, Phase.all, filter_phase_of_forall hx, filter_phase_of_forall hy, hnone]

/-- Settling the operations of an outline in the order in which they are carried out takes what settling
them in the order of the agenda does, sorted by phase. -/
theorem settle_sorted {w : Outline} (h : w.Sound) (s : Snapshot) :
    settle w.sorted s = ⟨byPhase (settle w.operations s).done, (settle w.operations s).fault⟩ := by
  have htypes : ∀ op ∈ (settle w.types s).done, op.phase = .types := fun op hop =>
    h.types op ((settle_sublist _ _).subset hop)
  by_cases hfault : (settle w.types s).fault = none
  · have hrelations : ∀ op ∈ w.relations.flatMap RelationPart.operations, op.phase ≠ .types := by
      intro op hop
      obtain ⟨part, hpart, hop⟩ := List.mem_flatMap.mp hop
      exact (h.relations part hpart).phase_ne_types op hop
    have hlatePeace : ∀ op ∈ w.relations.flatMap RelationPart.late, Peaceful op := by
      intro op hop
      obtain ⟨part, hpart, hop⟩ := List.mem_flatMap.mp hop
      exact peaceful_of_phase (by simp [(h.relations part hpart).deferred op hop])
    have hrelationsPeace : ∀ op ∈ w.relations.flatMap RelationPart.operations, Peaceful op :=
      fun op hop => peaceful_of_phase (hrelations op hop)
    obtain ⟨hkeys, hlate, -⟩ := settle_relations h.relations (after w.tables (after w.types s))
    have hsorted : byPhase (settle w.operations s).done = (settle w.types s).done ++
        ((settle w.tables (after w.types s)).done ++
          ((settle (w.relations.map RelationPart.key) (after w.tables (after w.types s))).done ++
            (settle (w.relations.flatMap RelationPart.late)
              (after (w.relations.map RelationPart.key)
                (after w.tables (after w.types s)))).done)) := by
      rw [hkeys, hlate, Outline.operations, settle_append _ hfault, settle_append_done h.peaceful_tables]
      exact byPhase_append _ _ htypes (fun op hop => h.tables op ((settle_sublist _ _).subset hop))
        fun op hop => hrelations op ((settle_sublist _ _).subset hop)
    have hnoFault : (settle w.operations s).fault = none := by
      rw [Outline.operations, settle_append _ hfault]
      exact settle_fault_eq_none (List.forall_mem_append.mpr ⟨h.peaceful_tables, hrelationsPeace⟩) _
    rw [hsorted, hnoFault, Outline.sorted, settle_append _ hfault, settle_append_done h.peaceful_tables,
      settle_append_done h.peaceful_keys, settle_fault_eq_none]
    exact List.forall_mem_append.mpr
      ⟨h.peaceful_tables, List.forall_mem_append.mpr ⟨h.peaceful_keys, hlatePeace⟩⟩
  · have hbyPhase : byPhase (settle w.types s).done = (settle w.types s).done := by
      simpa using byPhase_append [] [] htypes (by simp) (by simp)
    rw [Outline.sorted, Outline.operations, settle_append_of_fault _ hfault,
      settle_append_of_fault _ hfault, hbyPhase]

end SchemaReconcile.Plan
