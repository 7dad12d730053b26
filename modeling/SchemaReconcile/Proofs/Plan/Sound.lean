import SchemaReconcile.Proofs.Plan.Agenda

/-!
# Agendas of sound models

The agenda of a sound model has no fault: every entity compiles, every column of an index is found, and every
relation finds its two entities and its key (`agenda_fault_of_sound`).  So a plan is what settling the
operations that a model wants takes (`plan_ok_iff`), and these are known one by one: `Calls` has a case for
each kind of operation, with the part of the model that calls for it (`mem_wanted`).
-/

namespace SchemaReconcile.Plan

open Catalog (Operation Snapshot)
open Settings (Options)

variable {options : Options} {m : Model}

/-! ## Compiled entities -/

/-- The entities of a sound model compile one by one. -/
theorem compileEntities_of_sound (h : m.Sound) (options : Options) :
    (m.compileEntities (targetOf options m)).fault = none ∧
      List.Forall₂ (fun e c => e.compile (targetOf options m) = .ok c) m.entities
        (compiledEntities options m) := by
  have hcompiles : ∀ e ∈ m.entities, ∃ c, e.compile (targetOf options m) = .ok c :=
    fun e he => (h.entity e he).compiles _ rfl
  choose! c hc using hcompiles
  have hall : m.compileEntities (targetOf options m) = ⟨m.entities.map c, none⟩ :=
    Progress.of_eq_map hc
  refine ⟨by rw [hall], ?_⟩
  rw [compiledEntities, hall, List.forall₂_map_right_iff, List.forall₂_same]
  exact hc

/-- The compiled entities of a sound model have different names. -/
theorem nodup_compiled_names (h : m.Sound) (options : Options) :
    ((compiledEntities options m).map CompiledEntity.name).Nodup := by
  obtain ⟨-, hall⟩ := compileEntities_of_sound h options
  rw [map_eq_map_of_forall₂ (f := Entity.name) hall fun e c hec => (Entity.compile_ok hec).1]
  exact h.entities

/-- The compiled entity of a name is that of the entity of this name. -/
theorem compiledOf_of_sound (h : m.Sound) (options : Options) {e : Entity} (he : e ∈ m.entities) :
    ∃ c, e.compile (targetOf options m) = .ok c ∧
      compiledOf (compiledEntities options m) e.name = .ok c := by
  obtain ⟨-, hall⟩ := compileEntities_of_sound h options
  obtain ⟨c, hc, hcompile⟩ := exists_right_of_forall₂ hall he
  have hnodup : ((compiledEntities options m).reverse.map CompiledEntity.name).Nodup := by
    rw [List.map_reverse, List.nodup_reverse]
    exact nodup_compiled_names h options
  refine ⟨c, hcompile, ?_⟩
  have hfind := find?_of_nodup CompiledEntity.name hnodup (List.mem_reverse.mpr hc)
  rw [(Entity.compile_ok hcompile).1] at hfind
  rw [compiledOf, hfind]

/-! ## Relations -/

/-- The entities, the field and the compiled parts that a relation is about. -/
structure Joins (options : Options) (m : Model) (r : Relation) (e t : Entity)
    (owner target : CompiledEntity) (f : EntityField) (g : CompiledField) : Prop where
  ownerMem : e ∈ m.entities
  ownerName : e.name = r.keyOwner
  ownerCompiled : e.compile (targetOf options m) = .ok owner
  targetMem : t ∈ m.entities
  targetName : t.name = r.keyTarget
  targetCompiled : t.compile (targetOf options m) = .ok target
  field : e.field? f.name = some f
  reference : f.type = .reference r.keyTarget
  foreignKey : r.foreignKey = EntityField.keyName f.name
  keyField : keyField? owner (keyColumnOf r) = some g

namespace Joins

variable {r : Relation} {e t : Entity} {owner target : CompiledEntity} {f : EntityField}
  {g : CompiledField}

/-- The field of the key is one of the owner. -/
theorem mem_fields (h : Joins options m r e t owner target f g) : f ∈ e.fields :=
  List.mem_of_find?_eq_some h.field

/-- The column of the key is that of the field. -/
theorem columnName (h : Joins options m r e t owner target f g) : f.columnName = keyColumnOf r := by
  rw [keyColumnOf, h.foreignKey, EntityField.columnName_of_reference h.reference]

/-- The column of the key is one of the owner. -/
theorem mem_fieldColumns (h : Joins options m r e t owner target f g) :
    keyColumnOf r ∈ owner.fieldColumns := by
  rw [Entity.fieldColumns_eq h.ownerCompiled, ← h.columnName]
  exact List.mem_map.mpr ⟨f, h.mem_fields, rfl⟩

/-- The column that the key refers to is one of the target. -/
theorem keyColumn_mem (h : Joins options m r e t owner target f g) (hm : m.Sound) :
    target.keyColumn ∈ target.fieldColumns :=
  Entity.keyColumn_mem (hm.entity t h.targetMem).key h.targetCompiled

end Joins

/-- A relation of a sound model finds its entities and its key. -/
theorem exists_joins (h : m.Sound) (options : Options) {r : Relation} (hr : r ∈ m.relations) :
    ∃ e t owner target f g, Joins options m r e t owner target f g ∧
      compiledOf (compiledEntities options m) r.keyOwner = .ok owner ∧
      compiledOf (compiledEntities options m) r.keyTarget = .ok target := by
  obtain ⟨⟨e, he, hename, f, hf, htype, hkey⟩, ⟨t, ht, htname⟩⟩ := h.relation r hr
  obtain ⟨owner, howner, hofOwner⟩ := compiledOf_of_sound h options he
  obtain ⟨target, htarget, hofTarget⟩ := compiledOf_of_sound h options ht
  obtain ⟨g, honly, -⟩ := Entity.exists_only_keyField howner (h.entity e he).columns.nodup
    (List.mem_of_find?_eq_some hf) (f.isReference_iff.mpr ⟨_, htype⟩)
  have hfind : keyField? owner f.columnName = some g := by
    rw [keyField?, ← List.head?_filter, honly]
    rfl
  have hcolumn : f.columnName = keyColumnOf r := by
    rw [keyColumnOf, hkey, EntityField.columnName_of_reference htype]
  rw [hcolumn] at hfind
  rw [hename] at hofOwner
  rw [htname] at hofTarget
  exact ⟨e, t, owner, target, f, g,
    ⟨he, hename, howner, ht, htname, htarget, hf, htype, hkey, hfind⟩, hofOwner, hofTarget⟩

/-- The operations of a relation of a sound model. -/
theorem exists_relationPart (h : m.Sound) (options : Options) {r : Relation} (hr : r ∈ m.relations) :
    ∃ e t owner target f g, Joins options m r e t owner target f g ∧
      relationPart? options.schema (compiledEntities options m) r =
        some (relationPart options.schema owner target g r) := by
  obtain ⟨e, t, owner, target, f, g, hjoins, howner, htarget⟩ := exists_joins h options hr
  refine ⟨e, t, owner, target, f, g, hjoins, ?_⟩
  rw [relationPart?, howner, htarget]
  exact congrArg (Option.map _) hjoins.keyField

/-! ## No fault -/

/-- The columns of an index of a sound model are found. -/
theorem indexColumns_of_sound {e : Entity} (h : m.SoundEntity e) {c : CompiledEntity}
    {target : CompileTarget} (hc : e.compile target = .ok c) {spec : IndexSpec}
    (hspec : spec ∈ e.indexes) : indexColumns c spec = .ok (indexedColumns c spec) := by
  have hcolumns : ∀ name ∈ spec.fields, ∃ column, c.column? name = some column := by
    intro name hname
    obtain ⟨column, -, hcolumn⟩ := h.exists_indexed_column hc hspec hname
    exact ⟨column, hcolumn⟩
  choose! column hcolumn using hcolumns
  have hfound : indexColumns c spec = .ok (spec.fields.map column) :=
    mapM_eq_ok_map fun name hname => by rw [hcolumn name hname]
  rw [hfound, indexColumns_ok hfound]

/-- The steps of an entity of a sound model have no fault. -/
theorem entitySteps_of_sound {e : Entity} (h : m.SoundEntity e) {c : CompiledEntity}
    (hc : e.compile (targetOf options m) = .ok c) : (entitySteps options e c).fault = none := by
  have hindexes : Progress.of (indexStep options.schema c) e.indexes =
      ⟨e.indexes.map fun spec => .ensure (.entity c.name) (indexOperation options.schema c spec),
        none⟩ := by
    refine Progress.of_eq_map fun spec hspec => ?_
    rw [indexStep, indexColumns_of_sound h hc hspec]
    rfl
  unfold entitySteps
  dsimp only
  rw [hindexes]

/-- The agenda of a sound model has no fault. -/
theorem agenda_fault_of_sound (h : m.Sound) (options : Options) : (agenda options m).fault = none := by
  obtain ⟨hcompiled, -⟩ := compileEntities_of_sound h options
  rw [agenda, Progress.join_fault_eq_none]
  simp only [structureParts, List.forall_mem_cons, List.forall_mem_append, List.forall_mem_map]
  refine ⟨trivial, trivial, by rw [hcompiled]; rfl, ?_, ?_⟩
  · intro e he
    obtain ⟨c, hc, hof⟩ := compiledOf_of_sound h options he
    unfold compiledEntities at hof
    rw [hof]
    exact entitySteps_of_sound (h.entity e he) hc
  · intro r hr
    obtain ⟨e, t, owner, target, f, g, hjoins, howner, htarget⟩ := exists_joins h options hr
    unfold compiledEntities at howner htarget
    have hkey : keyField? owner (Naming.snakeCase r.foreignKey) = some g := hjoins.keyField
    have hsteps : relationSteps options.schema (m.compileEntities (targetOf options m)).done r =
        .ok ((relationPart options.schema owner target g r).operations.map
          (Step.ensure (.relation r.describe))) := by
      refine bind_eq_ok.mpr ⟨owner, howner, bind_eq_ok.mpr ⟨target, htarget, ?_⟩⟩
      dsimp only
      rw [hkey]
      rfl
    rw [hsteps]
    rfl

/-! ## Operations -/

/-- The outline of a model in a schema. -/
def outlineOf (options : Options) (m : Model) : Outline :=
  outline options m (compiledEntities options m)

/-- The operations of a model, in the order in which they are carried out. -/
def wanted (options : Options) (m : Model) : List Operation := (outlineOf options m).sorted

/-- The operations for the entities of a sound model. -/
theorem mem_outline_tables (h : m.Sound) {op : Operation} :
    op ∈ (outlineOf options m).tables ↔ ∃ e ∈ m.entities, ∃ c,
      e.compile (targetOf options m) = .ok c ∧ op ∈ entityOperations options e c := by
  rw [outlineOf, outline, List.mem_flatMap]
  constructor
  · rintro ⟨e, he, hop⟩
    obtain ⟨c, hc, hof⟩ := compiledOf_of_sound h options he
    rw [hof] at hop
    exact ⟨e, he, c, hc, hop⟩
  · rintro ⟨e, he, c, hc, hop⟩
    obtain ⟨c', hc', hof⟩ := compiledOf_of_sound h options he
    obtain rfl : c = c' := Except.ok.inj (hc.symm.trans hc')
    exact ⟨e, he, by rwa [hof]⟩

/-- The operations for the relations of a sound model. -/
theorem mem_outline_relations (h : m.Sound) {part : RelationPart} :
    part ∈ (outlineOf options m).relations ↔ ∃ r ∈ m.relations, ∃ e t owner target f g,
      Joins options m r e t owner target f g ∧
        part = relationPart options.schema owner target g r := by
  rw [outlineOf, outline, List.mem_filterMap]
  constructor
  · rintro ⟨r, hr, hpart⟩
    obtain ⟨e, t, owner, target, f, g, hjoins, hsome⟩ := exists_relationPart h options hr
    rw [hsome] at hpart
    exact ⟨r, hr, e, t, owner, target, f, g, hjoins, (Option.some.inj hpart).symm⟩
  · rintro ⟨r, hr, e, t, owner, target, f, g, hjoins, rfl⟩
    obtain ⟨e', t', owner', target', f', g', hjoins', hsome⟩ :=
      exists_relationPart h options hr
    refine ⟨r, hr, hsome.trans ?_⟩
    have howner : e' = e := List.inj_on_of_nodup_map h.entities hjoins'.ownerMem hjoins.ownerMem
      (hjoins'.ownerName.trans hjoins.ownerName.symm)
    have htarget : t' = t := List.inj_on_of_nodup_map h.entities hjoins'.targetMem
      hjoins.targetMem (hjoins'.targetName.trans hjoins.targetName.symm)
    subst howner htarget
    obtain rfl : owner' = owner :=
      Except.ok.inj (hjoins'.ownerCompiled.symm.trans hjoins.ownerCompiled)
    obtain rfl : target' = target :=
      Except.ok.inj (hjoins'.targetCompiled.symm.trans hjoins.targetCompiled)
    obtain rfl : g' = g := Option.some.inj (hjoins'.keyField.symm.trans hjoins.keyField)
    rfl

/-- A model calls for an operation: there is a case for each kind, with the part of the model that is about
it. -/
inductive Calls (options : Options) (m : Model) : Operation → Prop where
  | schema : Calls options m (.createSchema options.schema)
  | enumType {n : Enumeration} (hn : n ∈ m.enums) :
      Calls options m (.createEnumType options.schema (Naming.enumTypeOf options.schema n.name)
        n.values n.name)
  | typeComment {n : Enumeration} (hn : n ∈ m.enums) :
      Calls options m (.commentOnType options.schema (Naming.enumTypeOf options.schema n.name)
        n.comment)
  | table {e : Entity} {c : CompiledEntity} (he : e ∈ m.entities)
      (hc : e.compile (targetOf options m) = .ok c) :
      Calls options m (.createTable options.schema c.table (c.columns options.timestamps)
        c.description)
  | column {e : Entity} {c : CompiledEntity} {column : Sql.Column} (he : e ∈ m.entities)
      (hc : e.compile (targetOf options m) = .ok c) (hcolumn : column ∈ c.columns options.timestamps) :
      Calls options m (.addColumn options.schema c.table column)
  | index {e : Entity} {c : CompiledEntity} {spec : IndexSpec} (he : e ∈ m.entities)
      (hc : e.compile (targetOf options m) = .ok c) (hspec : spec ∈ e.indexes) :
      Calls options m (indexOperation options.schema c spec)
  | trigger {e : Entity} {c : CompiledEntity} (he : e ∈ m.entities)
      (hc : e.compile (targetOf options m) = .ok c)
      (hkeeps : keepsUpdated c options.timestamps = true) :
      Calls options m (.createUpdatedTrigger options.schema c.table)
  | key {r : Relation} {e t : Entity} {owner target : CompiledEntity} {f : EntityField}
      {g : CompiledField} (hr : r ∈ m.relations) (hjoins : Joins options m r e t owner target f g) :
      Calls options m (relationPart options.schema owner target g r).key
  | keyComment {r : Relation} {e t : Entity} {owner target : CompiledEntity} {f : EntityField}
      {g : CompiledField} (hr : r ∈ m.relations) (hjoins : Joins options m r e t owner target f g)
      (hkind : r.kind ≠ .belongsTo) :
      Calls options m (.commentOnConstraint options.schema owner.table
        (Naming.foreignKeyConstraint owner.table (keyColumnOf r)) (relationTags r))
  | uniqueIndex {r : Relation} {e t : Entity} {owner target : CompiledEntity} {f : EntityField}
      {g : CompiledField} (hr : r ∈ m.relations) (hjoins : Joins options m r e t owner target f g)
      (hkind : r.kind = .hasOne) :
      Calls options m (.createIndex options.schema owner.table
        (Naming.uniqueIndex owner.table (keyColumnOf r)) [keyColumnOf r] true none true)

/-- The operations that a sound model calls for are those that are settled. -/
theorem mem_wanted (h : m.Sound) {op : Operation} : op ∈ wanted options m ↔ Calls options m op := by
  have hsplit : op ∈ wanted options m ↔ op ∈ (outlineOf options m).types ∨
      op ∈ (outlineOf options m).tables ∨ ∃ part ∈ (outlineOf options m).relations,
        op = part.key ∨ op ∈ part.late := by
    simp only [wanted, Outline.sorted, List.mem_append, List.mem_map, List.mem_flatMap, and_or_left,
      exists_or, eq_comm (b := op)]
  rw [hsplit]
  constructor
  · rintro (hop | hop | ⟨part, hpart, hop⟩)
    · rcases List.mem_cons.mp hop with rfl | hop
      · exact .schema
      · obtain ⟨n, hn, hop⟩ := List.mem_flatMap.mp hop
        rcases List.mem_pair.mp hop with rfl | rfl
        · exact .enumType hn
        · exact .typeComment hn
    · obtain ⟨e, he, c, hc, hop⟩ := (mem_outline_tables h).mp hop
      obtain rfl | ⟨column, hcolumn, rfl⟩ | ⟨spec, hspec, rfl⟩ | ⟨hkeeps, rfl⟩ :=
        mem_entityOperations.mp hop
      · exact .table he hc
      · exact .column he hc hcolumn
      · exact .index he hc hspec
      · exact .trigger he hc hkeeps
    · obtain ⟨r, hr, e, t, owner, target, f, g, hjoins, rfl⟩ := (mem_outline_relations h).mp hpart
      obtain rfl | hop := hop
      · exact .key hr hjoins
      · obtain ⟨hkind, rfl⟩ | ⟨hkind, rfl⟩ := mem_inverseOperations.mp hop
        · exact .keyComment hr hjoins hkind
        · exact .uniqueIndex hr hjoins hkind
  · intro hcalls
    cases hcalls with
    | schema => exact .inl List.mem_cons_self
    | enumType hn =>
      exact .inl (List.mem_cons_of_mem _ (List.mem_flatMap.mpr ⟨_, hn, List.mem_cons_self⟩))
    | typeComment hn =>
      exact .inl (List.mem_cons_of_mem _ (List.mem_flatMap.mpr
        ⟨_, hn, List.mem_cons_of_mem _ (List.mem_singleton_self _)⟩))
    | table he hc =>
      exact .inr (.inl ((mem_outline_tables h).mpr
        ⟨_, he, _, hc, mem_entityOperations.mpr (.inl rfl)⟩))
    | column he hc hcolumn =>
      exact .inr (.inl ((mem_outline_tables h).mpr
        ⟨_, he, _, hc, mem_entityOperations.mpr (.inr (.inl ⟨_, hcolumn, rfl⟩))⟩))
    | index he hc hspec =>
      exact .inr (.inl ((mem_outline_tables h).mpr
        ⟨_, he, _, hc, mem_entityOperations.mpr (.inr (.inr (.inl ⟨_, hspec, rfl⟩)))⟩))
    | trigger he hc hkeeps =>
      exact .inr (.inl ((mem_outline_tables h).mpr
        ⟨_, he, _, hc, mem_entityOperations.mpr (.inr (.inr (.inr ⟨hkeeps, rfl⟩)))⟩))
    | key hr hjoins =>
      exact .inr (.inr ⟨_, (mem_outline_relations h).mpr
        ⟨_, hr, _, _, _, _, _, _, hjoins, rfl⟩, .inl rfl⟩)
    | keyComment hr hjoins hkind =>
      exact .inr (.inr ⟨_, (mem_outline_relations h).mpr ⟨_, hr, _, _, _, _, _, _, hjoins, rfl⟩,
        .inr (mem_inverseOperations.mpr (.inl ⟨hkind, rfl⟩))⟩)
    | uniqueIndex hr hjoins hkind =>
      exact .inr (.inr ⟨_, (mem_outline_relations h).mpr ⟨_, hr, _, _, _, _, _, _, hjoins, rfl⟩,
        .inr (mem_inverseOperations.mpr (.inr ⟨hkind, rfl⟩))⟩)

/-! ## Plans -/

/-- Where an agenda has no fault, planning settles the operations in the order in which they are carried
out. -/
theorem plan_eq_settle (hagenda : (agenda options m).fault = none) (s : Snapshot) :
    plan options m s = match indexLimitFault? options m with
      | some fault => .error fault
      | none => (settle (wanted options m) s).all := by
  unfold plan
  cases indexLimitFault? options m with
  | some fault => rfl
  | none =>
    have hsettle : settle ((agenda options m).done.filterMap Step.operation?) s =
        settle (outlineOf options m).operations s :=
      congrArg (settle · s) (agenda_operations hagenda)
    have hsorted := settle_sorted (outline_sound options m (compiledEntities options m)) s
    dsimp only
    rw [hsettle, hagenda]
    unfold wanted outlineOf
    rw [hsorted]
    cases (settle (outline options m (compiledEntities options m)).operations s).fault <;> rfl

/-- A plan for a sound model is what settling its operations takes, when no entity has too many indexes. -/
theorem plan_ok_iff (h : m.Sound) {s : Snapshot} {ops : List Operation} :
    plan options m s = .ok ops ↔
      indexLimitFault? options m = none ∧ settle (wanted options m) s = ⟨ops, none⟩ := by
  rw [plan_eq_settle (agenda_fault_of_sound h options)]
  cases indexLimitFault? options m with
  | some fault => simp
  | none => simp [Progress.all_eq_ok]

/-- The plan for authors and profiles in a schema that does not exist. -/
def profilePlan : List Operation := (plan {} profileModel (.empty "public")).toOption.getD []

/-- Authors and profiles have a plan. -/
theorem plan_profileModel : plan {} profileModel (.empty "public") = .ok profilePlan :=
  eq_ok_of_toOption (by decide +kernel)

end SchemaReconcile.Plan
