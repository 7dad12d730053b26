import SchemaReconcile.Proofs.Compile.Columns
import SchemaReconcile.Proofs.Plan.Taken

/-!
# Types of enumerations

The type of an enumeration is named by a short hash of its name.  In a schema that does not exist, a type is
created for the first enumeration that has it, and for no later one (`mem_plan_iff_isFirst`); a later one with
the same type is served by it, and has the same values, since otherwise there is no plan (`values_eq_of_type`).
Every column that holds an enumeration has the type of this enumeration by name.  So each enumeration has a
type of its own exactly when the short hash tells the names of the enumerations apart (`plan_enumTypes`); two
names that it does not tell apart are given last.
-/

namespace SchemaReconcile

/-- A compiled field that holds an enumeration has its type. -/
theorem Entity.type_of_enumeration {e : Entity} {target : CompileTarget} {f : EntityField}
    {g : CompiledField} (h : e.compileField target f = .ok g) {name : String}
    (htype : f.type = .enumeration name) :
    name ∈ target.enums ∧
      g.type = .enumType target.schema (Naming.enumTypeOf target.schema name) := by
  obtain ⟨-, -, ⟨name', htype', hname, hstored⟩ | ⟨kind, hstored⟩⟩ := compileField_ok h
  · obtain rfl : name = name' := FieldType.enumeration.inj (htype.symm.trans htype')
    exact ⟨hname, hstored⟩
  · obtain ⟨column, -, h⟩ := bind_eq_ok.mp h
    obtain ⟨⟨type, host, codec⟩, hstorage, h⟩ := bind_eq_ok.mp h
    obtain rfl := Except.ok.inj h
    simp only [EntityField.storage, htype] at hstorage
    split at hstorage
    · obtain rfl := (Prod.mk.inj (Except.ok.inj hstorage)).1
      cases hstored
    · cases hstorage

namespace Plan

open Catalog (Operation Snapshot Fact)
open Catalog.Operation (applyAll)
open Settings (Options)

variable {options : Options} {m : Model} {ops : List Operation}

/-- The type of an enumeration in the schema of the options. -/
def typeOf (options : Options) (n : Enumeration) : String := Naming.enumTypeOf options.schema n.name

/-- The operation that creates the type of an enumeration, with its values as labels. -/
def typeOperation (options : Options) (n : Enumeration) : Operation :=
  .createEnumType options.schema (typeOf options n) n.values n.name

/-- The type that an operation creates. -/
def createdType? : Operation → Option String
  | .createEnumType _ type _ _ => some type
  | _ => none

/-- An operation creates a type. -/
def createsType (op : Operation) : Bool := (createdType? op).isSome

/-- Every enumeration of a model has a type of its own in a plan. -/
structure TypesOwn (options : Options) (m : Model) (ops : List Operation) : Prop where
  /-- One type is created for each enumeration, in order and with exactly its values. -/
  created : ops.filter createsType = m.enums.map (typeOperation options)
  distinct : (ops.filterMap createdType?).Nodup
  /-- The table of an entity is created, and a column that holds an enumeration has the type that is created for
  this one. -/
  columns : ∀ e ∈ m.entities, ∃ columns,
    .createTable options.schema e.tableName columns e.description ∈ ops ∧
    ∀ f ∈ e.fields, ∀ name, f.type = .enumeration name → ∃ n ∈ m.enums, n.name = name ∧
      typeOperation options n ∈ ops ∧ ∃ column ∈ columns, column.name = f.columnName ∧
        column.type = Sql.enumColumn options.schema (typeOf options n) f.isArray

/-! ## Types that are created -/

/-- A type is created for an enumeration that has it. -/
theorem Calls.createdType_eq {op : Operation} (h : Calls options m op) {type : String}
    (htype : createdType? op = some type) :
    ∃ n ∈ m.enums, type = typeOf options n ∧ op = typeOperation options n := by
  cases h with
  | enumType hn => exact ⟨_, hn, (Option.some.inj htype).symm, rfl⟩
  | _ => cases htype

/-- Only the operation that creates a type makes it true that the type is there. -/
theorem enumType_mem_effects {op : Operation} {type : String} :
    Fact.enumType type ∈ op.effects ↔ createdType? op = some type := by
  cases op <;>
    simp [Operation.effects, Operation.wants, createdType?, Catalog.Operation.mem_keyEffects,
      eq_comm (a := type)]

/-- The operations for a model create the types of its enumerations, in order. -/
theorem filter_wanted (options : Options) (m : Model) :
    (wanted options m).filter createsType =
      m.enums.map (typeOperation options) := by
  have hsound := outline_sound options m (compiledEntities options m)
  have hnone : ∀ {op : Operation}, op.phase ≠ .types → ¬ createsType op := by
    intro op hphase hcreates
    cases op with
    | createEnumType => exact hphase rfl
    | _ => cases hcreates
  have htables : (outlineOf options m).tables.filter createsType = [] :=
    List.filter_eq_nil_iff.mpr fun op hop => hnone (by simp [hsound.tables op hop])
  have hkeys : ((outlineOf options m).relations.map RelationPart.key).filter createsType = [] := by
    refine List.filter_eq_nil_iff.mpr (List.forall_mem_map.mpr fun part hpart => hnone ?_)
    simp [phase_of_isKey (hsound.relations part hpart).isKey]
  have hlate : ((outlineOf options m).relations.flatMap RelationPart.late).filter createsType = [] := by
    refine List.filter_eq_nil_iff.mpr fun op hop => hnone ?_
    obtain ⟨part, hpart, hop⟩ := List.mem_flatMap.mp hop
    simp [(hsound.relations part hpart).deferred op hop]
  have htypes : (outlineOf options m).types.filter createsType =
      m.enums.map (typeOperation options) := by
    rw [List.map_eq_flatMap, outlineOf, outline, List.filter_cons_of_neg (by simp [createsType, createdType?]),
      List.filter_flatMap]
    rfl
  rw [wanted, Outline.sorted, List.filter_append, List.filter_append, List.filter_append, htypes, htables,
    hkeys, hlate]
  simp

/-- The first enumeration with a type is the first for which an operation creates it. -/
theorem isFirst_wanted {n : Enumeration} (h : IsFirst (fun k => typeOf options k = typeOf options n) m.enums n) :
    IsFirst (fun op => Fact.enumType (typeOf options n) ∈ op.effects) (wanted options m)
      (typeOperation options n) := by
  obtain ⟨before, after, henums, -, hbefore⟩ := h
  have htypes : IsFirst (fun op => Fact.enumType (typeOf options n) ∈ op.effects) (outlineOf options m).types
      (typeOperation options n) := by
    refine ⟨.createSchema options.schema :: before.flatMap (enumOperations options.schema),
      .commentOnType options.schema (typeOf options n) n.comment ::
        after.flatMap (enumOperations options.schema), ?_, enumType_mem_effects.mpr rfl, ?_⟩
    · rw [outlineOf, outline, henums, List.flatMap_append, List.flatMap_cons]
      rfl
    · refine List.forall_mem_cons.mpr ⟨by simp [Operation.effects, Operation.wants], ?_⟩
      intro op hop heffect
      obtain ⟨k, hk, hop⟩ := List.mem_flatMap.mp hop
      rcases List.mem_pair.mp hop with rfl | rfl
      · exact hbefore k hk (Option.some.inj (enumType_mem_effects.mp heffect))
      · cases enumType_mem_effects.mp heffect
  exact htypes.append _

/-- In a schema that does not exist the type of an enumeration is created exactly when no enumeration before it
has this type. -/
theorem mem_plan_iff_isFirst (h : m.Sound) (hplan : plan options m (.empty options.schema) = .ok ops)
    {n : Enumeration} (hn : n ∈ m.enums) :
    typeOperation options n ∈ ops ↔
      IsFirst (fun k => typeOf options k = typeOf options n) m.enums n := by
  obtain ⟨-, hsettle⟩ := (plan_ok_iff h).mp hplan
  have htaken : ∀ {k : Enumeration}, IsFirst (fun k' => typeOf options k' = typeOf options k) m.enums k →
      typeOperation options k ∈ ops := by
    intro k hfirst
    exact mem_taken_of_isFirst hsettle (by simp [Snapshot.Shows, Snapshot.labels?, Snapshot.empty])
      (isFirst_wanted hfirst) rfl
  refine ⟨fun hop => ?_, htaken⟩
  obtain ⟨k, hfirst⟩ := exists_isFirst (P := fun k => typeOf options k = typeOf options n).mpr ⟨n, hn, rfl⟩
  have htype : typeOf options k = typeOf options n := hfirst.holds
  have hmem : typeOperation options k ∈ ops := htaken (by rwa [htype])
  have hsame : typeOperation options k = typeOperation options n :=
    eq_of_wants (eachTurn_of_plan h hplan).2 hmem hop (f := .enumType (typeOf options n)) trivial
      (by rw [← htype]; rfl) rfl
  obtain rfl : k = n :=
    List.inj_on_of_nodup_map h.enums hfirst.mem hn (Operation.createEnumType.inj hsame).2.2.2
  exact hfirst

/-- Enumerations of a plan that have one type have the same values. -/
theorem values_eq_of_type (h : m.Sound) (hplan : plan options m (.empty options.schema) = .ok ops)
    {n k : Enumeration} (hn : n ∈ m.enums) (hk : k ∈ m.enums) (htype : typeOf options n = typeOf options k) :
    n.values = k.values := by
  have hlabels : ∀ {n : Enumeration}, n ∈ m.enums →
      (applyAll ops (.empty options.schema)).labels? (typeOf options n) = some n.values := by
    intro n hn
    exact settle_shows_of_steady ((plan_ok_iff h).mp hplan).2 ((mem_wanted h).mpr (.enumType hn))
      (List.mem_cons_of_mem _ (List.mem_singleton_self _)) (steady_labels _ _)
  have hsame := hlabels hn
  rw [htype, hlabels hk] at hsame
  exact (Option.some.inj hsame).symm

/-- The types that a plan creates are different. -/
theorem nodup_createdTypes (h : m.Sound) {s : Snapshot} (hplan : plan options m s = .ok ops) :
    (ops.filterMap createdType?).Nodup := by
  refine List.pairwise_filterMap.mpr ((pairwise_spares (eachTurn_of_plan h hplan).2).imp ?_)
  rintro a b hspares type htype _ htype' rfl
  have hwants : Fact.enumType type ∈ b.wants.head? := by
    cases b with
    | createEnumType =>
      obtain rfl := Option.some.inj htype'
      rfl
    | _ => cases htype'
  exact hspares _ hwants trivial (enumType_mem_effects.mpr htype)

/-! ## Columns -/

/-- The table of an entity that compiles has a column for each field, of the type of its enumeration if it holds
one. -/
theorem exists_column_of_enumeration {e : Entity} {target : CompileTarget} {c : CompiledEntity}
    (hc : e.compile target = .ok c) (timestamps : Bool) {f : EntityField} (hf : f ∈ e.fields) {name : String}
    (htype : f.type = .enumeration name) :
    name ∈ target.enums ∧ ∃ column ∈ c.columns timestamps, column.name = f.columnName ∧
      column.type = Sql.enumColumn target.schema (Naming.enumTypeOf target.schema name) f.isArray := by
  obtain ⟨-, -, -, hfields⟩ := Entity.compile_ok hc
  obtain ⟨g, hg, hfg⟩ := exists_right_of_forall₂ hfields hf
  obtain ⟨hdeclared, hcolumn, -⟩ := Entity.compileField_ok hfg
  obtain ⟨hname, hstored⟩ := Entity.type_of_enumeration hfg htype
  refine ⟨hname, g.toColumn, List.mem_append_left _ (List.mem_map_of_mem hg), hcolumn, ?_⟩
  simp only [CompiledField.toColumn, hstored, hdeclared]

/-! ## Types of their own -/

/-- Enumerations have different types exactly when the short hash tells their names apart. -/
theorem nodup_types_iff (h : m.Sound) (options : Options) :
    (m.enums.map (typeOf options)).Nodup ↔ Naming.CollisionFree (m.enums.map (·.name)) := by
  constructor
  · intro htypes a ha b hb hhash
    obtain ⟨n, hn, rfl⟩ := List.mem_map.mp ha
    obtain ⟨k, hk, rfl⟩ := List.mem_map.mp hb
    have htype : typeOf options n = typeOf options k := by
      rw [typeOf, typeOf, Naming.enumTypeOf, Naming.enumTypeOf, hhash]
    rw [List.inj_on_of_nodup_map htypes hn hk htype]
  · intro hfree
    refine h.enums.of_map.map_on fun n hn k hk htype => ?_
    have hname : n.name = k.name :=
      hfree _ (List.mem_map_of_mem hn) _ (List.mem_map_of_mem hk)
        (Naming.shortHash_eq_of_enumTypeOf_eq htype)
    exact List.inj_on_of_nodup_map h.enums hn hk hname

/-- Where enumerations have different types, the types that a plan creates are those of the enumerations. -/
theorem filter_plan (h : m.Sound) (hplan : plan options m (.empty options.schema) = .ok ops)
    (htypes : (m.enums.map (typeOf options)).Nodup) :
    ops.filter createsType = m.enums.map (typeOperation options) := by
  have hnodup : (m.enums.map (typeOperation options)).Nodup := by
    refine h.enums.of_map.map_on fun n hn k hk hsame => ?_
    exact List.inj_on_of_nodup_map h.enums hn hk (Operation.createEnumType.inj hsame).2.2.2
  rw [← filter_wanted] at hnodup ⊢
  refine filter_taken ((plan_ok_iff h).mp hplan).2 hnodup fun op hop hcreates => ?_
  obtain ⟨type, htype⟩ := Option.isSome_iff_exists.mp hcreates
  obtain ⟨n, hn, -, rfl⟩ := ((mem_wanted h).mp hop).createdType_eq htype
  -- where the types are different, no enumeration before this one has its type
  obtain ⟨before, after, henums⟩ := List.append_of_mem hn
  refine (mem_plan_iff_isFirst h hplan hn).mpr ⟨before, after, henums, rfl, fun k hk htype => ?_⟩
  rw [henums, List.map_append, List.map_cons, List.nodup_append'] at htypes
  exact htypes.2.2 (List.mem_map_of_mem hk) (by rw [htype]; exact List.mem_cons_self)

/-- In a schema that does not exist the table of every entity is created, and its columns that hold enumerations
have the types of these. -/
theorem exists_enumColumns (h : m.Sound) (hplan : plan options m (.empty options.schema) = .ok ops)
    {e : Entity} (he : e ∈ m.entities) :
    ∃ columns, .createTable options.schema e.tableName columns e.description ∈ ops ∧
      ∀ f ∈ e.fields, ∀ name, f.type = .enumeration name → ∃ n ∈ m.enums, n.name = name ∧
        ∃ column ∈ columns, column.name = f.columnName ∧
          column.type = Sql.enumColumn options.schema (typeOf options n) f.isArray := by
  obtain ⟨c, hc⟩ := (h.entity e he).compiles (targetOf options m) rfl
  obtain ⟨-, htable, hdescription, -⟩ := Entity.compile_ok hc
  have hop := createTable_mem_plan h hplan he hc rfl
  rw [htable, hdescription] at hop
  refine ⟨_, hop, fun f hf name htype => ?_⟩
  obtain ⟨hname, hcolumn⟩ := exists_column_of_enumeration hc options.timestamps hf htype
  obtain ⟨n, hn, rfl⟩ := List.mem_map.mp hname
  exact ⟨n, hn, rfl, hcolumn⟩

/-- Every enumeration has a type of its own in a plan exactly when the types of the enumerations are different. -/
theorem typesOwn_iff (h : m.Sound) (hplan : plan options m (.empty options.schema) = .ok ops) :
    TypesOwn options m ops ↔ (m.enums.map (typeOf options)).Nodup := by
  have hdistinct := nodup_createdTypes h hplan
  constructor
  · intro hown
    have hfiltered : (ops.filter createsType).Sublist ops := List.filter_sublist
    have htypes := hdistinct.sublist (hfiltered.filterMap createdType?)
    have hcreated : (m.enums.map (typeOperation options)).filterMap createdType? =
        m.enums.map (typeOf options) := by
      rw [List.filterMap_map]
      exact congrFun List.filterMap_eq_map m.enums
    rwa [hown.created, hcreated] at htypes
  · intro htypes
    have hcreated := filter_plan h hplan htypes
    refine ⟨hcreated, hdistinct, fun e he => ?_⟩
    obtain ⟨columns, hop, hcolumns⟩ := exists_enumColumns h hplan he
    refine ⟨columns, hop, fun f hf name htype => ?_⟩
    obtain ⟨n, hn, hname, hcolumn⟩ := hcolumns f hf name htype
    have hmem : typeOperation options n ∈ ops.filter createsType := by
      rw [hcreated]
      exact List.mem_map_of_mem hn
    exact ⟨n, hn, hname, List.mem_of_mem_filter hmem, hcolumn⟩

/-- In a plan for a schema that does not exist every enumeration has a type of its own exactly when the short
hash tells the names of the enumerations apart.  In any case the types that are created are different, each one
is created for the first enumeration that has it, with exactly its values, every enumeration has a type with its
values, and the columns that hold an enumeration have its type. -/
theorem plan_enumTypes {d : Document} (hextract : extract d = .ok m)
    (hplan : plan options m (.empty options.schema) = .ok ops) :
    (TypesOwn options m ops ↔ Naming.CollisionFree (m.enums.map (·.name))) ∧
    (ops.filterMap createdType?).Nodup ∧
    (∀ op ∈ ops, createsType op → ∃ n ∈ m.enums, op = typeOperation options n) ∧
    (∀ n ∈ m.enums,
      (typeOperation options n ∈ ops ↔
        IsFirst (fun k => typeOf options k = typeOf options n) m.enums n) ∧
      ∃ k ∈ m.enums, typeOperation options k ∈ ops ∧ typeOf options k = typeOf options n ∧
        k.values = n.values) ∧
    ∀ e ∈ m.entities, ∃ columns,
      .createTable options.schema e.tableName columns e.description ∈ ops ∧
      ∀ f ∈ e.fields, ∀ name, f.type = .enumeration name → ∃ n ∈ m.enums, n.name = name ∧
        ∃ column ∈ columns, column.name = f.columnName ∧
          column.type = Sql.enumColumn options.schema (typeOf options n) f.isArray := by
  have hsound := extract_sound hextract
  refine ⟨(typesOwn_iff hsound hplan).trans (nodup_types_iff hsound options), nodup_createdTypes hsound hplan,
    ?_, ?_, fun e he => exists_enumColumns hsound hplan he⟩
  · intro op hop hcreates
    obtain ⟨type, htype⟩ := Option.isSome_iff_exists.mp hcreates
    obtain ⟨n, hn, -, heq⟩ := ((eachTurn_of_plan hsound hplan).1 op hop).createdType_eq htype
    exact ⟨n, hn, heq⟩
  · intro n hn
    refine ⟨mem_plan_iff_isFirst hsound hplan hn, ?_⟩
    obtain ⟨k, hfirst⟩ := exists_isFirst (P := fun k => typeOf options k = typeOf options n).mpr ⟨n, hn, rfl⟩
    have htype : typeOf options k = typeOf options n := hfirst.holds
    refine ⟨k, hfirst.mem, (mem_plan_iff_isFirst hsound hplan hfirst.mem).mpr ?_, htype,
      values_eq_of_type hsound hplan hfirst.mem hn htype⟩
    rwa [htype]

/-- Shirts of a size, in several colours. -/
def shirtDocument : Document where
  types :=
    [ { kind := .enumeration, name := "Size", values := ["SMALL", "LARGE"] },
      { kind := .enumeration, name := "Colour", values := ["RED", "BLUE"] },
      { kind := .object, name := "Shirt", directives := [{ name := "entity" }]
        fields :=
          [ { name := "id", type := { name := "ID", nullable := false } },
            { name := "size", type := { name := "Size", nullable := false } },
            { name := "colours", type := { name := "Colour", isArray := true } } ] } ]

/-- The model of shirts. -/
def shirtModel : Model := (extract shirtDocument).toOption.getD {}

/-- The size and the colours of a shirt have types of their own. -/
theorem plan_enumTypes_shirtModel :
    ∃ ops, plan {} shirtModel (.empty "public") = .ok ops ∧ (ops.filter createsType).length = 2 ∧
      TypesOwn {} shirtModel ops := by
  have hextract : extract shirtDocument = .ok shirtModel := eq_ok_of_toOption (by decide +kernel)
  have hplan : plan {} shirtModel (.empty "public") =
      .ok ((plan {} shirtModel (.empty "public")).toOption.getD []) := eq_ok_of_toOption (by decide +kernel)
  exact ⟨_, hplan, by decide +kernel, (plan_enumTypes hextract hplan).1.mpr (by decide +kernel)⟩

/-- Two enumerations with the same values, whose names have the same short hash. -/
def sharedTypeDocument : Document where
  types :=
    [ { kind := .enumeration, name := "PaidRegionType", values := ["NORTH", "SOUTH"] },
      { kind := .enumeration, name := "DryPlan", values := ["NORTH", "SOUTH"] },
      { kind := .object, name := "A", directives := [{ name := "entity" }]
        fields :=
          [ { name := "id", type := { name := "ID", nullable := false } },
            { name := "region", type := { name := "PaidRegionType" } },
            { name := "plan", type := { name := "DryPlan" } } ] } ]

/-- The model of the two enumerations and an entity with a column for each. -/
def sharedTypeModel : Model := (extract sharedTypeDocument).toOption.getD {}

/-- Enumerations whose names have the same short hash get one type together. -/
theorem enumerations_share_type :
    extract sharedTypeDocument = .ok sharedTypeModel ∧ ∃ ops,
      plan { timestamps := false } sharedTypeModel (.empty "public") = .ok ops ∧
      (ops.filter createsType).length = 1 ∧ ¬ TypesOwn { timestamps := false } sharedTypeModel ops := by
  refine ⟨eq_ok_of_toOption (by decide +kernel),
    (plan { timestamps := false } sharedTypeModel (.empty "public")).toOption.getD [],
    eq_ok_of_toOption (by decide +kernel), by decide +kernel, fun hown => ?_⟩
  exact absurd hown.created (by decide +kernel)

end Plan

end SchemaReconcile
