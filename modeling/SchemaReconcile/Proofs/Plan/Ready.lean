import SchemaReconcile.Proofs.Catalog.Ready
import SchemaReconcile.Proofs.Compile.Columns
import SchemaReconcile.Proofs.Plan.Sound

/-!
# Plans that can be carried out

A list of operations is supported when each one needs only what is known before it or what operations in
front of it are for (`Supported`).  This is a property of the list alone: whichever of the operations
a snapshot leaves pending, each that is taken is ready at its turn (`settle_eachTurn_ready`).  The list of a sound
model is supported, so its plans can be carried out in their order (`plan_ready`).
-/

namespace SchemaReconcile.Plan

open Catalog (Operation Snapshot Fact)
open Catalog.Operation (applyAll Ready shows_apply)
open Settings (Options)

/-! ## Supported operations -/

/-- Each operation needs only what is known or what an operation in front of it is for. -/
def Supported (known : Fact → Prop) : List Operation → Prop
  | [] => True
  | op :: rest => (∀ f ∈ op.needs, known f) ∧ Supported (fun f => known f ∨ f ∈ op.wants) rest

/-- Operations that need no more than what is known are supported. -/
theorem supported_of_forall {known : Fact → Prop} {ops : List Operation}
    (h : ∀ op ∈ ops, ∀ f ∈ op.needs, known f) : Supported known ops := by
  induction ops generalizing known with
  | nil => exact trivial
  | cons op rest ih =>
    exact ⟨h op List.mem_cons_self,
      ih fun a ha f hf => .inl (h a (List.mem_cons_of_mem _ ha) f hf)⟩

/-- More knowledge supports as much. -/
theorem Supported.mono {known more : Fact → Prop} {ops : List Operation} (h : Supported known ops)
    (hmore : ∀ f, known f → more f) : Supported more ops := by
  induction ops generalizing known more with
  | nil => exact trivial
  | cons op rest ih =>
    exact ⟨fun f hf => hmore f (h.1 f hf), ih h.2 fun f hf => hf.imp (hmore f) id⟩

/-- A second part is supported by what is known and by the first part. -/
theorem supported_append {known : Fact → Prop} {xs ys : List Operation} (hxs : Supported known xs)
    (hys : Supported (fun f => known f ∨ ∃ op ∈ xs, f ∈ op.wants) ys) :
    Supported known (xs ++ ys) := by
  induction xs generalizing known with
  | nil => exact hys.mono fun f hf => hf.elim id fun ⟨op, hop, _⟩ => nomatch hop
  | cons op rest ih =>
    refine ⟨hxs.1, ih hxs.2 (hys.mono ?_)⟩
    rintro f (hf | ⟨a, ha, hf⟩)
    · exact .inl (.inl hf)
    · rcases List.mem_cons.mp ha with rfl | ha
      · exact .inl (.inr hf)
      · exact .inr ⟨a, ha, hf⟩

/-- Groups that are each supported by what is known are supported together. -/
theorem supported_flatMap {α : Type} {known : Fact → Prop} {items : List α}
    {group : α → List Operation} (h : ∀ a ∈ items, Supported known (group a)) :
    Supported known (items.flatMap group) := by
  induction items with
  | nil => exact trivial
  | cons a rest ih =>
    rw [List.flatMap_cons]
    refine supported_append (h a List.mem_cons_self) ?_
    exact (ih fun b hb => h b (List.mem_cons_of_mem _ hb)).mono fun f hf => .inl hf

/-- Of supported operations, each one that is taken is ready at its turn. -/
theorem settle_eachTurn_ready {known : Fact → Prop} {ops : List Operation} {s : Snapshot}
    (hsupported : Supported known ops) (hdistinct : ∀ op ∈ ops, op.creations.Nodup)
    (hknown : ∀ f, f.Lasting → known f → s.Shows f) : EachTurn Ready (settle ops s).done s := by
  induction ops generalizing known s with
  | nil => exact trivial
  | cons op rest ih =>
    have hrest : ∀ a ∈ rest, a.creations.Nodup := fun a ha => hdistinct a (List.mem_cons_of_mem _ ha)
    cases hconflict : op.conflict? s with
    | some live =>
      rw [settle_cons_conflict hconflict]
      exact trivial
    | none =>
      cases hpending : op.pending s with
      | true =>
        rw [settle_cons_taken hconflict hpending]
        have hready : op.Ready s :=
          ⟨fun f hf => hknown f (Catalog.Operation.lasting_of_mem_needs hf) (hsupported.1 f hf),
            fun f hf => Catalog.Operation.fresh_of_pending hpending hf,
            hdistinct op List.mem_cons_self⟩
        refine ⟨hready, ih hsupported.2 hrest ?_⟩
        rintro f hlasting (hf | hf)
        · exact (shows_apply f hpending).mpr
            (.inl ⟨hknown f hlasting hf, Catalog.Operation.not_overwrites_of_lasting hlasting⟩)
        · exact (shows_apply f hpending).mpr (.inr (mem_effects_of_mem_wants hf))
      | false =>
        rw [settle_cons_skipped hconflict hpending]
        refine ih hsupported.2 hrest ?_
        rintro f hlasting (hf | hf)
        · exact hknown f hlasting hf
        · exact shows_of_not_pending hconflict hpending hf

/-! ## The operations of a sound model -/

variable {options : Options} {m : Model}

/-- What is known once the types are settled: the schema, and the types of the enumerations. -/
def TypesKnown (options : Options) (m : Model) (f : Fact) : Prop :=
  f = .schema ∨ ∃ n ∈ m.enums, f = .enumType (Naming.enumTypeOf options.schema n.name)

/-- What is known once the tables are settled: the types, and the tables of the entities with their
columns. -/
def TablesKnown (options : Options) (m : Model) (f : Fact) : Prop :=
  TypesKnown options m f ∨ ∃ e ∈ m.entities, ∃ c, e.compile (targetOf options m) = .ok c ∧
    (f = .table c.table ∨ ∃ column ∈ c.columns options.timestamps, f = .column c.table column.name)

/-- A column needs only the types of the enumerations. -/
theorem typesKnown_of_columnNeeds {e : Entity} {c : CompiledEntity}
    (hc : e.compile (targetOf options m) = .ok c) {column : Sql.Column}
    (hcolumn : column ∈ c.columns options.timestamps) {f : Fact}
    (hf : f ∈ Catalog.columnNeeds column) : TypesKnown options m f := by
  obtain ⟨type, rfl, htype⟩ := Catalog.Operation.exists_of_mem_columnNeeds hf
  obtain ⟨name, hbuiltin⟩ | ⟨name, hname, isArray, hnamed⟩ := Entity.type_of_mem_columns hc hcolumn
  · rw [hbuiltin] at htype
    cases htype
  · rw [hnamed, Catalog.namedType?_enumColumn] at htype
    obtain rfl := Option.some.inj htype
    obtain ⟨n, hn, rfl⟩ := List.mem_map.mp hname
    exact .inr ⟨n, hn, rfl⟩

/-- The operations for the types are supported. -/
theorem supported_types (options : Options) (m : Model) :
    Supported (fun _ => False) (outlineOf options m).types := by
  refine ⟨fun f hf => (List.not_mem_nil hf).elim, supported_flatMap fun n _ => ⟨?_, ?_, trivial⟩⟩
  · intro f hf
    exact .inr hf
  · intro f hf
    rcases List.mem_pair.mp hf with rfl | rfl
    · exact .inl (.inr (List.mem_singleton_self _))
    · exact .inr List.mem_cons_self

/-- The operations for a table are supported by the types. -/
theorem supported_tableOperations {e : Entity} {c : CompiledEntity}
    (hc : e.compile (targetOf options m) = .ok c) :
    Supported (TypesKnown options m)
      (tableOperations options.schema c (c.columns options.timestamps)) := by
  refine ⟨?_, supported_of_forall ?_⟩
  · intro f hf
    rcases List.mem_cons.mp hf with rfl | hf
    · exact .inl rfl
    · obtain ⟨column, hcolumn, hf⟩ := List.mem_flatMap.mp hf
      exact typesKnown_of_columnNeeds hc hcolumn hf
  · intro op hop f hf
    obtain ⟨column, hcolumn, rfl⟩ := List.mem_map.mp hop
    rcases List.mem_cons.mp hf with rfl | hf
    · exact .inl (.inl rfl)
    · rcases List.mem_cons.mp hf with rfl | hf
      · exact .inr (List.mem_singleton_self _)
      · exact .inl (typesKnown_of_columnNeeds hc hcolumn hf)

/-- The operations for a table are for the table and for each of its columns. -/
theorem exists_wants_tableOperations (schema : String) (c : CompiledEntity) {timestamps : Bool}
    {f : Fact} (h : f = .table c.table ∨
      ∃ column ∈ c.columns timestamps, f = .column c.table column.name) :
    ∃ op ∈ tableOperations schema c (c.columns timestamps), f ∈ op.wants := by
  obtain rfl | ⟨column, hcolumn, rfl⟩ := h
  · exact ⟨_, List.mem_cons_self, List.mem_singleton_self _⟩
  · exact ⟨_, List.mem_cons_of_mem _ (List.mem_map.mpr ⟨column, hcolumn, rfl⟩),
      List.mem_singleton_self _⟩

/-- The declared indexes of an entity are supported by its table. -/
theorem supported_indexes {known : Fact → Prop} {e : Entity} {c : CompiledEntity}
    (he : m.SoundEntity e) (hc : e.compile (targetOf options m) = .ok c) (hschema : known .schema)
    (htable : ∀ f, (f = .table c.table ∨ ∃ column ∈ c.columns options.timestamps,
      f = .column c.table column.name) → known f) :
    Supported known (e.indexes.map (indexOperation options.schema c)) := by
  refine supported_of_forall ?_
  intro op hop f hf
  obtain ⟨spec, hspec, rfl⟩ := List.mem_map.mp hop
  rcases List.mem_cons.mp hf with rfl | hf
  · exact hschema
  · rcases List.mem_cons.mp hf with rfl | hf
    · exact htable _ (.inl rfl)
    · obtain ⟨name, hname, rfl⟩ := List.mem_map.mp hf
      obtain ⟨field, hfield, hfind⟩ := List.mem_filterMap.mp hname
      obtain ⟨name', hname', hfind'⟩ := he.exists_indexed_column hc hspec hfield
      obtain rfl : name' = name := Option.some.inj (hfind'.symm.trans hfind)
      obtain ⟨column, hcolumn, rfl⟩ :=
        CompiledEntity.exists_column_of_field options.timestamps hname'
      exact htable _ (.inr ⟨column, hcolumn, rfl⟩)

/-- The trigger of an entity is supported by its table. -/
theorem supported_trigger {known : Fact → Prop} {c : CompiledEntity} (hschema : known .schema)
    (htable : ∀ f, (f = .table c.table ∨ ∃ column ∈ c.columns options.timestamps,
      f = .column c.table column.name) → known f) :
    Supported known (triggerOperations options c) := by
  refine supported_of_forall ?_
  intro op hop f hf
  unfold triggerOperations at hop
  split at hop
  · next hkeeps =>
    obtain rfl := List.mem_singleton.mp hop
    obtain ⟨column, hcolumn, hname⟩ := CompiledEntity.exists_updatedColumn hkeeps
    rcases List.mem_cons.mp hf with rfl | hf
    · exact hschema
    · rcases List.mem_pair.mp hf with rfl | rfl
      · exact htable _ (.inl rfl)
      · exact htable _ (.inr ⟨column, hcolumn, by rw [hname]⟩)
  · cases hop

/-- The operations for an entity are supported by the types. -/
theorem supported_entityOperations {e : Entity} {c : CompiledEntity} (he : m.SoundEntity e)
    (hc : e.compile (targetOf options m) = .ok c) :
    Supported (TypesKnown options m) (entityOperations options e c) := by
  refine supported_append (supported_append (supported_tableOperations hc) ?_) ?_
  · exact supported_indexes he hc (.inl (.inl rfl)) fun f hf =>
      .inr (exists_wants_tableOperations options.schema c hf)
  · refine supported_trigger (.inl (.inl rfl)) fun f hf => .inr ?_
    obtain ⟨op, hop, hwants⟩ := exists_wants_tableOperations options.schema c hf
    exact ⟨op, List.mem_append_left _ hop, hwants⟩

/-- The table of the owner and the column of a key are known with the tables. -/
theorem Joins.tablesKnown_owner {r : Relation} {e t : Entity} {owner target : CompiledEntity}
    {f : EntityField} {g : CompiledField} (h : Joins options m r e t owner target f g) :
    TablesKnown options m (.table owner.table) ∧
      TablesKnown options m (.column owner.table (keyColumnOf r)) := by
  obtain ⟨column, hcolumn, hname⟩ :=
    CompiledEntity.exists_column_of_field options.timestamps h.mem_fieldColumns
  refine ⟨.inr ⟨e, h.ownerMem, owner, h.ownerCompiled, .inl rfl⟩,
    .inr ⟨e, h.ownerMem, owner, h.ownerCompiled, .inr ⟨column, hcolumn, ?_⟩⟩⟩
  rw [hname]

/-- The table and the column that a key refers to are known with the tables. -/
theorem Joins.tablesKnown_target {r : Relation} {e t : Entity} {owner target : CompiledEntity}
    {f : EntityField} {g : CompiledField} (h : Joins options m r e t owner target f g)
    (hm : m.Sound) : TablesKnown options m (.table target.table) ∧
      TablesKnown options m (.column target.table target.keyColumn) := by
  obtain ⟨column, hcolumn, hname⟩ :=
    CompiledEntity.exists_column_of_field options.timestamps (h.keyColumn_mem hm)
  refine ⟨.inr ⟨t, h.targetMem, target, h.targetCompiled, .inl rfl⟩,
    .inr ⟨t, h.targetMem, target, h.targetCompiled, .inr ⟨column, hcolumn, ?_⟩⟩⟩
  rw [hname]

/-- The foreign keys are supported by the tables. -/
theorem supported_keys (h : m.Sound) :
    Supported (TablesKnown options m) ((outlineOf options m).relations.map RelationPart.key) := by
  refine supported_of_forall ?_
  intro op hop f hf
  obtain ⟨part, hpart, rfl⟩ := List.mem_map.mp hop
  obtain ⟨r, -, e, t, owner, target, field, g, hjoins, rfl⟩ := (mem_outline_relations h).mp hpart
  obtain ⟨hownerTable, hownerColumn⟩ := hjoins.tablesKnown_owner
  obtain ⟨htargetTable, htargetColumn⟩ := hjoins.tablesKnown_target h
  simp only [relationPart, Operation.needs, List.mem_cons, List.not_mem_nil, or_false] at hf
  obtain rfl | rfl | rfl | rfl | rfl := hf
  · exact .inl (.inl rfl)
  · exact hownerTable
  · exact hownerColumn
  · exact htargetTable
  · exact htargetColumn

/-- What relations defer is supported by the tables and the foreign keys. -/
theorem supported_late (h : m.Sound) :
    Supported (fun f => TablesKnown options m f ∨
        ∃ op ∈ (outlineOf options m).relations.map RelationPart.key, f ∈ op.wants)
      ((outlineOf options m).relations.flatMap RelationPart.late) := by
  refine supported_of_forall ?_
  intro op hop f hf
  obtain ⟨part, hpart, hop⟩ := List.mem_flatMap.mp hop
  obtain ⟨r, -, e, t, owner, target, field, g, hjoins, rfl⟩ := (mem_outline_relations h).mp hpart
  obtain ⟨hownerTable, hownerColumn⟩ := hjoins.tablesKnown_owner
  obtain ⟨-, rfl⟩ | ⟨-, rfl⟩ := mem_inverseOperations.mp hop
  · simp only [Operation.needs, List.mem_cons, List.not_mem_nil, or_false] at hf
    obtain rfl | rfl | rfl := hf
    · exact .inl (.inl (.inl rfl))
    · exact .inl hownerTable
    · exact .inr ⟨_, List.mem_map.mpr ⟨_, hpart, rfl⟩, List.mem_singleton_self _⟩
  · simp only [Operation.needs, List.map_cons, List.map_nil, List.mem_cons, List.not_mem_nil,
      or_false] at hf
    obtain rfl | rfl | rfl := hf
    · exact .inl (.inl (.inl rfl))
    · exact .inl hownerTable
    · exact .inl hownerColumn

/-- The operations for the types make the types known. -/
theorem exists_wants_types {f : Fact} (h : TypesKnown options m f) :
    ∃ op ∈ (outlineOf options m).types, f ∈ op.wants := by
  obtain rfl | ⟨n, hn, rfl⟩ := h
  · exact ⟨_, List.mem_cons_self, List.mem_singleton_self _⟩
  · exact ⟨_, List.mem_cons_of_mem _ (List.mem_flatMap.mpr ⟨n, hn, List.mem_cons_self⟩),
      List.mem_cons_self⟩

/-- The operations for the types and the tables make the tables known. -/
theorem exists_wants_tables (hm : m.Sound) {f : Fact} (h : TablesKnown options m f) :
    (∃ op ∈ (outlineOf options m).types, f ∈ op.wants) ∨
      ∃ op ∈ (outlineOf options m).tables, f ∈ op.wants := by
  obtain h | ⟨e, he, c, hc, h⟩ := h
  · exact .inl (exists_wants_types h)
  · obtain ⟨op, hop, hwants⟩ := exists_wants_tableOperations options.schema c h
    have hmem : op ∈ entityOperations options e c :=
      List.mem_append_left _ (List.mem_append_left _ hop)
    exact .inr ⟨op, (mem_outline_tables hm).mpr ⟨e, he, c, hc, hmem⟩, hwants⟩

/-- The operations that a sound model calls for are supported in the order in which they are carried
out. -/
theorem supported_wanted (options : Options) (h : m.Sound) :
    Supported (fun _ => False) (wanted options m) := by
  have htables : Supported (TypesKnown options m) (outlineOf options m).tables := by
    refine supported_flatMap fun e he => ?_
    obtain ⟨c, hc, hof⟩ := compiledOf_of_sound h options he
    rw [hof]
    exact supported_entityOperations (h.entity e he) hc
  refine supported_append (supported_types options m) ?_
  refine supported_append (htables.mono fun f hf => .inr (exists_wants_types hf)) ?_
  have hknown : ∀ f, TablesKnown options m f →
      (False ∨ ∃ op ∈ (outlineOf options m).types, f ∈ op.wants) ∨
        ∃ op ∈ (outlineOf options m).tables, f ∈ op.wants :=
    fun f hf => (exists_wants_tables h hf).imp .inr id
  refine supported_append ((supported_keys h).mono hknown) ?_
  exact (supported_late h).mono fun f hf => hf.imp (hknown f) id

/-- An operation that a sound model calls for creates nothing twice. -/
theorem Calls.creations_nodup {op : Operation} (hm : m.Sound) (h : Calls options m op) :
    op.creations.Nodup := by
  cases h with
  | @table e c he hc =>
    have hcolumns : c.fieldColumns.Nodup := by
      rw [Entity.fieldColumns_eq hc]
      exact (hm.entity e he).columns.nodup
    have hnames := CompiledEntity.nodup_columns options.timestamps hcolumns
    have hfacts : ((c.columns options.timestamps).map fun column =>
        Fact.column c.table column.name).Nodup := by
      have hinjective : Function.Injective (Fact.column c.table) :=
        fun a b hab => (Fact.column.inj hab).2
      have := hnames.map hinjective
      rwa [List.map_map] at this
    refine List.nodup_cons.mpr ⟨?_, hfacts⟩
    intro hmem
    obtain ⟨column, -, hcolumn⟩ := List.mem_map.mp hmem
    cases hcolumn
  | typeComment => exact List.nodup_nil
  | keyComment => exact List.nodup_nil
  | _ => exact List.nodup_singleton _

/-- Each operation of a plan of a sound model is ready at its turn. -/
theorem eachTurn_ready_of_plan (h : m.Sound) {s : Snapshot} {ops : List Operation}
    (hplan : plan options m s = .ok ops) : EachTurn Ready ops s := by
  obtain ⟨-, hsettle⟩ := (plan_ok_iff h).mp hplan
  have hturns := settle_eachTurn_ready (s := s) (supported_wanted options h)
    (fun op hop => ((mem_wanted h).mp hop).creations_nodup h)
    (fun f _ hf => hf.elim)
  rwa [hsettle] at hturns

/-- The operations of a plan can be carried out one after another: each is ready when its turn comes. -/
theorem plan_ready {d : Document} (hextract : extract d = .ok m) {s : Snapshot}
    {ops : List Operation} (hplan : plan options m s = .ok ops) (i : ℕ) (hi : i < ops.length) :
    ops[i].Ready (applyAll (ops.take i) s) :=
  (eachTurn_ready_of_plan (extract_sound hextract) hplan).getElem i hi

/-- The sixth operation of the plan for authors and profiles is ready after the first five. -/
theorem plan_ready_profilePlan : ∃ h : 5 < profilePlan.length,
    profilePlan[5].Ready (applyAll (profilePlan.take 5) (.empty "public")) :=
  ⟨by decide +kernel, plan_ready extract_profileDocument plan_profileModel 5 (by decide +kernel)⟩

end SchemaReconcile.Plan
