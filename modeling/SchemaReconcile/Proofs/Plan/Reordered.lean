import SchemaReconcile.Proofs.Extract.Reordered
import SchemaReconcile.Proofs.Plan.Commute
import SchemaReconcile.Proofs.Plan.Refusal
import SchemaReconcile.Proofs.Plan.Resume

/-!
# Plans for the parts of a model in another order

Two models may have the same enumerations, entities and relations in another order (`Model.Reordered`).  Their
entities compile alike and are found alike, so each part calls for the same operations in both.  The operations
of two enumerations or of two entities are about different objects, foreign keys may change places, and so may
what is deferred, since nothing there takes back what something else is for.  So the turns of all operations
end in the same snapshot (`Model.Reordered.same_turns`), and the two models can be planned for where one of
them can, with the same result (`Model.Reordered.plan`).  Documents that declare the same types in two orders
have such models (`declaration_order`).
-/

namespace SchemaReconcile

namespace Plan

open Catalog (Operation Snapshot)
open Catalog.Operation (applyAll)
open Settings (Options)

variable {options : Options} {m m' : Model} {s : Snapshot}

/-! ## The same operations -/

/-- The entities of a sound model compiled, those that compile. -/
theorem compiledEntities_eq (h : m.Sound) (options : Options) :
    compiledEntities options m =
      m.entities.filterMap fun e => (e.compile (targetOf options m)).toOption := by
  obtain ⟨-, hall⟩ := compileEntities_of_sound h options
  exact (filterMap_eq_of_forall₂ (hall.imp fun e c hc => by rw [hc]; rfl)).symm

/-- The operations for an entity, found by its name among compiled ones. -/
def entityGroup (options : Options) (entities : List CompiledEntity) (e : Entity) : List Operation :=
  match compiledOf entities e.name with
  | .ok c => entityOperations options e c
  | .error _ => []

/-- The operations of an entity of a sound model are about its table. -/
theorem objectOf_of_mem_entityGroup (h : m.Sound) {e : Entity} (he : e ∈ m.entities) {op : Operation}
    (hop : op ∈ entityGroup options (compiledEntities options m) e) : objectOf op = .table e.tableName := by
  obtain ⟨c, hc, hof⟩ := compiledOf_of_sound h options he
  rw [entityGroup, hof] at hop
  rw [← (Entity.compile_ok hc).2.1]
  obtain rfl | ⟨column, -, rfl⟩ | ⟨spec, -, rfl⟩ | ⟨-, rfl⟩ := mem_entityOperations.mp hop <;> rfl

/-- The operations of an enumeration are about its type. -/
theorem objectOf_of_mem_enumOperations {schema : String} {n : Enumeration} {op : Operation}
    (hop : op ∈ enumOperations schema n) : objectOf op = .enumType (Naming.enumTypeOf schema n.name) := by
  rcases List.mem_pair.mp hop with rfl | rfl <;> rfl

end Plan

namespace Model.Reordered

open Catalog (Operation Snapshot)
open Catalog.Operation (applyAll)
open Settings (Options)
open Plan

variable {options : Options} {m m' : Model} {s : Snapshot}

/-- The entities compile alike for both models. -/
theorem compile_eq (h : m.Reordered m') (options : Options) (e : Entity) :
    e.compile (targetOf options m) = e.compile (targetOf options m') :=
  Entity.compile_congr rfl fun _ => (h.enums.map (·.name)).mem_iff

/-- The compiled entities of both models are found alike. -/
theorem compiledOf_eq (h : m.Reordered m') (hm : m.Sound) (hm' : m'.Sound) (options : Options) :
    compiledOf (compiledEntities options m) = compiledOf (compiledEntities options m') := by
  have hperm : (compiledEntities options m).Perm (compiledEntities options m') := by
    rw [compiledEntities_eq hm, compiledEntities_eq hm']
    simp only [h.compile_eq]
    exact h.entities.filterMap _
  have hnodup : ((compiledEntities options m).reverse.map CompiledEntity.name).Nodup := by
    rw [List.map_reverse, List.nodup_reverse]
    exact nodup_compiled_names hm options
  funext name
  have hfind := find?_eq_of_perm CompiledEntity.name
    ((List.reverse_perm _).trans (hperm.trans (List.reverse_perm _).symm)) hnodup name
  rw [compiledOf, compiledOf, hfind]

/-- The operations for relations are the same for both models, in another order. -/
theorem relationParts_perm (h : m.Reordered m') (hm : m.Sound) (hm' : m'.Sound) (options : Options) :
    (outlineOf options m).relations.Perm (outlineOf options m').relations := by
  have hsame : relationPart? options.schema (compiledEntities options m) =
      relationPart? options.schema (compiledEntities options m') := by
    funext r
    rw [relationPart?, relationPart?, h.compiledOf_eq hm hm' options]
  rw [outlineOf, outlineOf, outline, outline, hsame]
  exact h.relations.filterMap _

/-- The turns of the operations for the types end in the same snapshot. -/
theorem same_turns_types (h : m.Reordered m') (hm : m.Sound) (hapart : m.HashesApart) (s : Snapshot) :
    (turns (outlineOf options m).types s).Same (turns (outlineOf options m').types s) := by
  refine turns_flatMap_same h.enums ?_ (.refl (advance (.createSchema options.schema) s))
  intro n hn n' hn' hne a ha b hb
  refine swaps_of_ne ?_
  rw [objectOf_of_mem_enumOperations ha, objectOf_of_mem_enumOperations hb]
  intro htypes
  exact hne (eq_of_enumTypeOf hm hapart hn hn' (Object.enumType.inj htypes))

/-- The turns of the operations for the tables end in the same snapshot. -/
theorem same_turns_tables (h : m.Reordered m') (hm : m.Sound) (hm' : m'.Sound) {s t : Snapshot}
    (hsame : s.Same t) :
    (turns (outlineOf options m).tables s).Same (turns (outlineOf options m').tables t) := by
  have hgroups : entityGroup options (compiledEntities options m) =
      entityGroup options (compiledEntities options m') := by
    funext e
    rw [entityGroup, entityGroup, h.compiledOf_eq hm hm' options]
  have htables : ∀ m : Model, (outlineOf options m).tables =
      m.entities.flatMap (entityGroup options (compiledEntities options m)) := fun _ => rfl
  rw [htables, htables, ← hgroups]
  refine turns_flatMap_same h.entities ?_ hsame
  intro e he e' he' hne a ha b hb
  refine swaps_of_ne ?_
  rw [objectOf_of_mem_entityGroup hm he ha, objectOf_of_mem_entityGroup hm he' hb]
  intro htable
  exact hne (List.inj_on_of_nodup_map hm.tables he he' (Object.table.inj htable))

/-- The turns of the foreign keys end in the same snapshot. -/
theorem same_turns_keys (h : m.Reordered m') (hm : m.Sound) (hm' : m'.Sound) {s t : Snapshot}
    (hsame : s.Same t) :
    (turns ((outlineOf options m).relations.map RelationPart.key) s).Same
      (turns ((outlineOf options m').relations.map RelationPart.key) t) := by
  have hsound := (outline_sound options m (compiledEntities options m)).relations
  rw [List.map_eq_flatMap, List.map_eq_flatMap]
  refine turns_flatMap_same (h.relationParts_perm hm hm' options) ?_ hsame
  intro p hp q hq _ a ha b hb
  rw [List.mem_singleton.mp ha, List.mem_singleton.mp hb]
  exact swaps_of_isKey (hsound p hp).isKey (hsound q hq).isKey

/-- The turns of what relations defer end in the same snapshot. -/
theorem same_turns_late (h : m.Reordered m') (hm : m.Sound) (hm' : m'.Sound) (hapart : m.HashesApart)
    {s t : Snapshot} (hsame : s.Same t) :
    (turns ((outlineOf options m).relations.flatMap RelationPart.late) s).Same
      (turns ((outlineOf options m').relations.flatMap RelationPart.late) t) := by
  have hsound := (outline_sound options m (compiledEntities options m)).relations
  have hwanted : ∀ p ∈ (outlineOf options m).relations, ∀ op ∈ p.late, op ∈ wanted options m := by
    intro p hp op hop
    have hmem : op ∈ (outlineOf options m).relations.flatMap RelationPart.late :=
      List.mem_flatMap.mpr ⟨p, hp, hop⟩
    simp only [wanted, Outline.sorted, List.mem_append]
    exact .inr (.inr (.inr hmem))
  refine turns_flatMap_same (h.relationParts_perm hm hm' options) ?_ hsame
  intro p hp q hq _ a ha b hb
  exact swaps_of_deferred ((hsound p hp).deferred a ha) ((hsound q hq).deferred b hb)
    ((coherent_wanted hm hapart).kept a (hwanted p hp a ha) b (hwanted q hq b hb))

/-- The turns of all operations end in the same snapshot. -/
theorem same_turns (h : m.Reordered m') (hm : m.Sound) (hm' : m'.Sound) (hapart : m.HashesApart)
    (options : Options) (s : Snapshot) :
    (turns (wanted options m) s).Same (turns (wanted options m') s) := by
  simp only [wanted, Outline.sorted, turns_append]
  exact h.same_turns_late hm hm' hapart
    (h.same_turns_keys hm hm' (h.same_turns_tables hm hm' (h.same_turns_types hm hapart s)))

/-! ## Plans -/

/-- One model cannot be planned for exactly when the other cannot. -/
theorem exists_fault_iff (h : m.Reordered m') (hm : m.Sound) (hm' : m'.Sound) (hapart : m.HashesApart)
    (options : Options) (s : Snapshot) :
    (∃ fault, plan options m s = .error fault) ↔ ∃ fault, plan options m' s = .error fault := by
  have htypes := nodup_enumTypes hm hapart options.schema
  have htypes' : (m'.enums.map fun n => Naming.enumTypeOf options.schema n.name).Nodup :=
    (h.enums.map _).nodup_iff.mp htypes
  rw [Plan.exists_fault_iff hm htypes, Plan.exists_fault_iff hm' htypes']
  simp only [h.entities.mem_iff, h.enums.mem_iff]

/-- Both models cannot be planned for, or both can and their plans lead to the same snapshot. -/
theorem plan (h : m.Reordered m') (hm : m.Sound) (hm' : m'.Sound) (hapart : m.HashesApart)
    (options : Options) (s : Snapshot) :
    ((∃ fault, Plan.plan options m s = .error fault) ∧ ∃ fault, Plan.plan options m' s = .error fault) ∨
      ∃ ops ops', Plan.plan options m s = .ok ops ∧ Plan.plan options m' s = .ok ops' ∧
        (applyAll ops s).Same (applyAll ops' s) := by
  have hfaults := h.exists_fault_iff hm hm' hapart options s
  cases hplan : Plan.plan options m s with
  | error fault => exact .inl ⟨⟨fault, rfl⟩, hfaults.mp ⟨fault, hplan⟩⟩
  | ok ops =>
    cases hplan' : Plan.plan options m' s with
    | error fault =>
      obtain ⟨fault', hfault⟩ := hfaults.mpr ⟨fault, hplan'⟩
      rw [hplan] at hfault
      cases hfault
    | ok ops' =>
      refine .inr ⟨ops, ops', rfl, rfl, ?_⟩
      rw [← turns_of_settle ((plan_ok_iff hm).mp hplan).2, ← turns_of_settle ((plan_ok_iff hm').mp hplan').2]
      exact h.same_turns hm hm' hapart options s

end Model.Reordered

/-! ## Documents in another order -/

namespace Plan

open Catalog (Operation Snapshot)
open Catalog.Operation (applyAll)

/-- The order of declarations only affects order.

A document has a model in one order of its type declarations exactly when it has one in another.  The entities,
enumerations and shapes of the two models are the same, each list in the order of its declarations, and each
entity starts the same relations.  Where the short hash tells the names apart that are hashed for the model, the
two models cannot be planned for at all, or both can and their plans lead to the same snapshot. -/
theorem declaration_order {d : Document} {types' : List TypeDeclaration} (h : d.types.Perm types') :
    ((∃ m, extract d = .ok m) ↔ ∃ m', extract { d with types := types' } = .ok m') ∧
    ∀ m m', extract d = .ok m → extract { d with types := types' } = .ok m' →
      SameParts d.types types' m m' ∧
      (m.HashesApart → ∀ options s,
        ((∃ fault, plan options m s = .error fault) ∧ ∃ fault, plan options m' s = .error fault) ∨
        ∃ ops ops', plan options m s = .ok ops ∧ plan options m' s = .ok ops' ∧
          (applyAll ops s).Same (applyAll ops' s)) := by
  constructor
  · constructor
    · rintro ⟨m, hm⟩
      obtain ⟨ds, hyields⟩ := extract_ok hm
      obtain ⟨ds', m', hyields'⟩ := hyields.exists_reordered h
      exact ⟨m', hyields'.extract_eq⟩
    · rintro ⟨m', hm'⟩
      obtain ⟨ds', hyields'⟩ := extract_ok hm'
      obtain ⟨ds, m, hyields⟩ := hyields'.exists_reordered h.symm
      exact ⟨m, hyields.extract_eq⟩
  · intro m m' hm hm'
    obtain ⟨ds, hyields⟩ := extract_ok hm
    obtain ⟨ds', hyields'⟩ := extract_ok hm'
    refine ⟨hyields.sameParts hyields' h, fun hapart options s => ?_⟩
    exact (hyields.reordered hyields' h).plan (extract_sound hm) (extract_sound hm') hapart options s

/-- The model of authors and profiles, declared backwards. -/
def backwardsModel : Model :=
  (extract { profileDocument with types := profileDocument.types.reverse }).toOption.getD {}

/-- Authors and profiles declared backwards have another plan, which leads to the same snapshot. -/
theorem declaration_order_backwardsModel :
    backwardsModel.entities = profileModel.entities.reverse ∧
      backwardsModel.relationsFrom "Author" = profileModel.relationsFrom "Author" ∧
      ∃ ops, plan {} backwardsModel (.empty "public") = .ok ops ∧ ops ≠ profilePlan ∧
        (applyAll profilePlan (.empty "public")).Same (applyAll ops (.empty "public")) := by
  have hmodel : extract { profileDocument with types := profileDocument.types.reverse } =
      .ok backwardsModel := eq_ok_of_toOption (by decide +kernel)
  have hplan : plan {} backwardsModel (.empty "public") =
      .ok ((plan {} backwardsModel (.empty "public")).toOption.getD []) :=
    eq_ok_of_toOption (by decide +kernel)
  obtain ⟨hparts, hplans⟩ := (declaration_order (List.reverse_perm profileDocument.types).symm).2
    profileModel backwardsModel extract_profileDocument hmodel
  refine ⟨by decide +kernel, (hparts.relations "Author").symm, _, hplan, by decide +kernel, ?_⟩
  obtain ⟨⟨fault, hfault⟩, -⟩ | ⟨ops, ops', hops, hops', hsame⟩ :=
    hplans hashesApart_profileModel {} (.empty "public")
  · rw [plan_profileModel] at hfault
    cases hfault
  · obtain rfl := Except.ok.inj (plan_profileModel.symm.trans hops)
    obtain rfl := Except.ok.inj (hplan.symm.trans hops')
    exact hsame

end Plan

end SchemaReconcile
