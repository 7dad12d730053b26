import SchemaReconcile.Proofs.Plan.Resume

/-!
# Complete plans

A plan leaves out nothing and does nothing twice.  Every fact that a called-for operation is for is shown once
the plan is carried out (`shows_of_calls`), and what a snapshot shows then has no other source than
the snapshot before and the operations of the plan (`shows_applyAll_iff`).  `Realizes` lists what this means for
the parts of a model.

A reference field gets its foreign key exactly when a lookup by its name finds it
(`plan_complete`): relations are inferred by the names of fields, and an entity may have a field of the
same name in front, with another column.
-/

namespace SchemaReconcile.Plan

open Catalog (Operation Snapshot Fact)
open Catalog.Operation (applyAll shows_apply pending_iff)
open Settings (Options)

variable {options : Options} {m : Model} {s : Snapshot} {ops : List Operation}

/-! ## Facts after a plan -/

/-- A lasting fact that is shown after operations was shown before or comes from one of them. -/
theorem shows_applyAll_iff {f : Fact} (hlasting : f.Lasting)
    (hturn : EachTurn (fun op s => op.pending s = true) ops s) :
    (applyAll ops s).Shows f ↔ s.Shows f ∨ ∃ op ∈ ops, f ∈ op.effects := by
  induction ops generalizing s with
  | nil => simp [applyAll]
  | cons op rest ih =>
    have hstep : (op.apply s).Shows f ↔ s.Shows f ∨ f ∈ op.effects := by
      rw [shows_apply f hturn.1]
      simp [Catalog.Operation.not_overwrites_of_lasting hlasting]
    have hrest : (applyAll (op :: rest) s).Shows f ↔
        (op.apply s).Shows f ∨ ∃ a ∈ rest, f ∈ a.effects := ih hturn.2
    rw [hrest, hstep, or_assoc, List.exists_mem_cons_iff]

/-- A pending operation changes the snapshot. -/
theorem apply_ne_of_pending {op : Operation} (hwants : op.wants ≠ []) (h : op.pending s = true) :
    op.apply s ≠ s := by
  intro hsame
  obtain ⟨f, rest, hf⟩ := List.exists_cons_of_ne_nil hwants
  have hbefore : ¬ s.Shows f := pending_iff.mp h f (by rw [hf]; rfl)
  have heffect : f ∈ op.effects := mem_effects_of_mem_wants (by rw [hf]; exact List.mem_cons_self)
  have hafter : (op.apply s).Shows f := (shows_apply f h).mpr (.inr heffect)
  rw [hsame] at hafter
  exact hbefore hafter

/-- Every operation of a plan is one that the model calls for, and it is pending at its turn. -/
theorem eachTurn_of_plan (h : m.Sound) (hplan : plan options m s = .ok ops) :
    (∀ op ∈ ops, Calls options m op) ∧ EachTurn (fun op s => op.pending s = true) ops s := by
  obtain ⟨-, hsettle⟩ := (plan_ok_iff h).mp hplan
  have hsub := settle_sublist (wanted options m) s
  have hturn := settle_eachTurn_pending (wanted options m) s
  rw [hsettle] at hsub hturn
  exact ⟨fun op hop => (mem_wanted h).mp (hsub.subset hop), hturn⟩

/-- What an operation that a model calls for is for is shown after a plan. -/
theorem shows_of_calls (h : m.Sound) (hapart : m.HashesApart) (hplan : plan options m s = .ok ops)
    {op : Operation} (hop : Calls options m op) {f : Fact} (hf : f ∈ op.wants) :
    (applyAll ops s).Shows f :=
  settle_shows (coherent_wanted h hapart) ((plan_ok_iff h).mp hplan).2 ((mem_wanted h).mpr hop) hf

/-! ## Foreign keys -/

/-- The name of a primary key is not that of a foreign key. -/
theorem primaryKeyName_ne_foreignKeyConstraint (table column : String) :
    Naming.primaryKeyName table ≠ Naming.foreignKeyConstraint table column := by
  intro h
  have hplain : Naming.EndsPlain (Naming.primaryKeyName table) := Naming.EndsPlain.append ⟨'y', rfl, by decide⟩ table
  by_cases hlong : Naming.IsLong (Naming.keyConstraintName table column)
  · exact Naming.bounded_ne_of_endsPlain hplain hlong h.symm
  · have hname : table ++ "_pkey" = table ++ "_" ++ column ++ "_fkey" :=
      h.trans (Naming.bounded_of_not_long hlong)
    have hlist : table.toList ++ "_pkey".toList =
        (table.toList ++ "_".toList ++ column.toList) ++ "_fkey".toList := by
      simpa only [String.toList_append] using congrArg String.toList hname
    have hend := List.append_inj_right' hlist rfl
    revert hend
    decide

/-- An operation that makes a constraint true gives a table its primary key, or is about a relation. -/
theorem Calls.constraint_effect {op : Operation} (h : Calls options m op) {table constraint : String}
    (hf : Fact.constraint table constraint ∈ op.effects) :
    constraint = Naming.primaryKeyName table ∨
      ∃ r ∈ m.relations, ∃ e t owner target f g, Joins options m r e t owner target f g ∧
        table = owner.table ∧
        constraint = Naming.foreignKeyConstraint owner.table (keyColumnOf r) := by
  cases h with
  | table he hc =>
    simp only [Operation.effects, List.cons_append, List.mem_cons, reduceCtorEq, List.mem_append,
      List.mem_map, and_false, exists_false, false_or, Catalog.Operation.mem_keyEffects,
      Fact.constraint.injEq, or_false] at hf
    obtain ⟨-, rfl, rfl⟩ := hf
    exact .inl rfl
  | key hr hjoins =>
    exact .inr ⟨_, hr, _, _, _, _, _, _, hjoins, Fact.constraint.inj (List.mem_singleton.mp hf)⟩
  | keyComment hr hjoins hkind =>
    rcases List.mem_pair.mp hf with hf | hf
    · exact .inr ⟨_, hr, _, _, _, _, _, _, hjoins, Fact.constraint.inj hf⟩
    · cases hf
  | enumType => simp [Operation.effects, Operation.wants] at hf
  | column => simp [Operation.effects] at hf
  | _ => cases List.mem_singleton.mp hf

/-- The relation that a reference field yields is about the field itself. -/
theorem Joins.of_belongsTo (h : m.Sound) {e : Entity} (he : e ∈ m.entities) {f : EntityField}
    (hf : e.field? f.name = some f) {name : String} {e' t : Entity}
    {owner target : CompiledEntity} {f' : EntityField} {g : CompiledField}
    (hjoins : Joins options m (belongsToOf e name f.name) e' t owner target f' g) :
    e' = e ∧ f' = f := by
  have hentity : e' = e :=
    List.inj_on_of_nodup_map h.entities hjoins.ownerMem he hjoins.ownerName
  have hname : f'.name = f.name := EntityField.keyName_injective hjoins.foreignKey.symm
  have hfield := hjoins.field
  rw [hentity, hname, hf] at hfield
  exact ⟨hentity, (Option.some.inj hfield).symm⟩

/-- After a plan a reference field has its foreign key exactly when it had it before, or when the lookup of
its name finds this field and no other one. -/
theorem hasConstraint_iff {d : Document} (hextract : extract d = .ok m) (hapart : m.HashesApart)
    (hplan : plan options m s = .ok ops) {e : Entity} (he : e ∈ m.entities) {f : EntityField}
    (hf : f ∈ e.fields) {name : String} (htype : f.type = .reference name) :
    (applyAll ops s).hasConstraint e.tableName
        (Naming.foreignKeyConstraint e.tableName f.columnName) = true ↔
      s.hasConstraint e.tableName (Naming.foreignKeyConstraint e.tableName f.columnName) = true ∨
        e.field? f.name = some f := by
  have hsound := extract_sound hextract
  obtain ⟨hcalls, hturn⟩ := eachTurn_of_plan hsound hplan
  constructor
  · intro hafter
    have hshown := (shows_applyAll_iff (f := .constraint e.tableName _) trivial hturn).mp hafter
    refine hshown.imp id ?_
    rintro ⟨op, hop, heffect⟩
    obtain hprimary | ⟨r, hr, e', t, owner, target, f', g, hjoins, htable, hconstraint⟩ :=
      (hcalls op hop).constraint_effect heffect
    · exact absurd hprimary.symm (primaryKeyName_ne_foreignKeyConstraint _ _)
    · -- the relation is about a field of this entity with this column, so about this field
      have howner : owner.table = e'.tableName := (Entity.compile_ok hjoins.ownerCompiled).2.1
      obtain rfl : e = e' :=
        List.inj_on_of_nodup_map hsound.tables he hjoins.ownerMem (htable.trans howner)
      have hcolumn : f.columnName = keyColumnOf r := by
        rw [← htable] at hconstraint
        refine Naming.column_eq_of_foreignKeyConstraint_eq hconstraint hapart.keys ?_
        intro column hmem hlong
        rcases List.mem_pair.mp hmem with rfl | rfl
        · exact mem_longKeyNames he hf htype hlong
        · rw [htable] at hlong ⊢
          exact hjoins.mem_longKeyNames hlong
      obtain rfl : f = f' := (hsound.entity e he).eq_of_columnName hf hjoins.mem_fields
        (hcolumn.trans hjoins.columnName.symm)
      exact hjoins.field
  · rintro (hbefore | hfield)
    · exact (shows_applyAll_iff (f := .constraint e.tableName _) trivial hturn).mpr (.inl hbefore)
    · have hr := belongsTo_mem_relations hextract he hfield htype
      obtain ⟨e', t, owner, target, f', g, hjoins, -⟩ := exists_joins hsound options hr
      obtain ⟨rfl, rfl⟩ := hjoins.of_belongsTo hsound he hfield
      have hshown := shows_of_calls hsound hapart hplan (.key hr hjoins) (List.mem_singleton_self _)
      rw [(Entity.compile_ok hjoins.ownerCompiled).2.1, ← hjoins.columnName] at hshown
      exact hshown

/-! ## Complete plans -/

/-- A snapshot has what a document and its model call for, but for the foreign keys. -/
structure Realizes (options : Options) (d : Document) (m : Model) (s : Snapshot) : Prop where
  schema : s.schemaExists = true
  /-- The type of an enumeration has its values as labels, and its comment. -/
  enums : ∀ n ∈ m.enums,
    s.labels? (Naming.enumTypeOf options.schema n.name) = some n.values ∧
    s.typeComment? (Naming.enumTypeOf options.schema n.name) = some n.comment
  /-- The table of an entity has its columns, its indexes and its trigger. -/
  tables : ∀ e ∈ m.entities, ∃ c, e.compile (targetOf options m) = .ok c ∧
    s.hasTable c.table = true ∧
    (∀ column ∈ c.columns options.timestamps, s.hasColumn c.table column.name = true) ∧
    (∀ spec ∈ e.indexes, ∃ columns, indexColumns c spec = .ok columns ∧
      s.hasIndex (Naming.indexName c.table columns (Naming.indexLead (isUnique spec))) = true) ∧
    (keepsUpdated c options.timestamps = true →
      s.hasTrigger c.table (Naming.triggerName c.table) = true)
  /-- A one-to-one relation keeps the column of its key unique. -/
  unique : ∀ r ∈ m.relations, r.kind = .hasOne → ∃ e ∈ m.entities, e.name = r.target ∧
    s.hasIndex (Naming.uniqueIndex e.tableName (keyColumnOf r)) = true
  /-- The key that a derived field of an entity points at carries the tags of the relation. -/
  tags : ∀ t ∈ d.types, HasRole t .entity → ∀ f ∈ t.fields, ∀ u, f.derivedFrom? = some u →
    ∃ e ∈ m.entities, e.name = f.type.name ∧ ∃ g, e.field? (backField u) = some g ∧
      g.type = .reference t.name ∧ ∃ r ∈ m.relations, r.kind ≠ .belongsTo ∧ r.source = t.name ∧
        r.fieldName = f.name ∧ s.constraintComment? e.tableName
          (Naming.foreignKeyConstraint e.tableName g.columnName) = some (relationTags r)

/-- A plan that was carried out realizes its model. -/
theorem realizes_applyAll {d : Document} (hextract : extract d = .ok m) (hapart : m.HashesApart)
    (hplan : plan options m s = .ok ops) : Realizes options d m (applyAll ops s) := by
  have hsound := extract_sound hextract
  have hshows : ∀ {op : Operation} {f : Fact}, Calls options m op → f ∈ op.wants →
      (applyAll ops s).Shows f := fun hop hf => shows_of_calls hsound hapart hplan hop hf
  refine ⟨hshows .schema (List.mem_singleton_self _), ?_, ?_, ?_, ?_⟩
  · intro n hn
    refine ⟨hshows (f := .labels _ _) (.enumType hn) ?_,
      hshows (f := .typeComment _ _) (.typeComment hn) (List.mem_singleton_self _)⟩
    exact List.mem_cons_of_mem _ (List.mem_singleton_self _)
  · intro e he
    obtain ⟨c, hc⟩ := (hsound.entity e he).compiles (targetOf options m) rfl
    refine ⟨c, hc, hshows (f := .table _) (.table he hc) (List.mem_singleton_self _), ?_, ?_, ?_⟩
    · intro column hcolumn
      exact hshows (f := .column _ _) (.column he hc hcolumn) (List.mem_singleton_self _)
    · intro spec hspec
      exact ⟨_, indexColumns_of_sound (hsound.entity e he) hc hspec,
        hshows (f := .index _) (.index he hc hspec) (List.mem_singleton_self _)⟩
    · intro hkeeps
      exact hshows (f := .trigger _ _) (.trigger he hc hkeeps) (List.mem_singleton_self _)
  · intro r hr hkind
    obtain ⟨e, t, owner, target, f, g, hjoins, -⟩ := exists_joins hsound options hr
    refine ⟨e, hjoins.ownerMem, ?_, ?_⟩
    · simpa [Relation.keyOwner, hkind] using hjoins.ownerName
    · have hshown := hshows (f := .index _) (.uniqueIndex hr hjoins hkind)
        (List.mem_singleton_self _)
      rw [(Entity.compile_ok hjoins.ownerCompiled).2.1] at hshown
      exact hshown
  · intro t ht hrole f hf u hu
    obtain ⟨source, hsource, hname, hr⟩ := inverse_mem_relations hextract ht hrole hf hu
    have hkind := inverseKind_ne_belongsTo m.entities f.type.name (backField u)
    obtain ⟨e, t', owner, target, g, k, hjoins, -⟩ := exists_joins hsound options hr
    have howner : e.name = f.type.name := by
      simpa [Relation.keyOwner, inverseOf, hkind] using hjoins.ownerName
    have htype : g.type = .reference t.name := by
      simpa [Relation.keyTarget, inverseOf, hkind, hname] using hjoins.reference
    have hback : g.name = backField u := EntityField.keyName_injective hjoins.foreignKey.symm
    refine ⟨e, hjoins.ownerMem, howner, g, hback ▸ hjoins.field, htype, _, hr, hkind, hname, rfl, ?_⟩
    have hshown := hshows (f := .constraintComment _ _ _) (.keyComment hr hjoins hkind)
      (List.mem_singleton_self _)
    rw [(Entity.compile_ok hjoins.ownerCompiled).2.1, ← hjoins.columnName] at hshown
    exact hshown

/-- A plan is complete, and nothing in it is redundant.  Once it is carried out the snapshot has what the
model calls for; a reference field has its foreign key exactly when it had it before, or when it is the field
that the lookup of its name finds; and each operation changes the snapshot that it is carried out
against. -/
theorem plan_complete {d : Document} (hextract : extract d = .ok m) (hapart : m.HashesApart)
    (hplan : plan options m s = .ok ops) :
    Realizes options d m (applyAll ops s) ∧
    (∀ e ∈ m.entities, ∀ f ∈ e.fields, ∀ name, f.type = .reference name →
      ((applyAll ops s).hasConstraint e.tableName
          (Naming.foreignKeyConstraint e.tableName f.columnName) = true ↔
        s.hasConstraint e.tableName (Naming.foreignKeyConstraint e.tableName f.columnName) = true ∨
          e.field? f.name = some f)) ∧
    ∀ (i : ℕ) (hi : i < ops.length),
      ops[i].apply (applyAll (ops.take i) s) ≠ applyAll (ops.take i) s := by
  have hsound := extract_sound hextract
  refine ⟨realizes_applyAll hextract hapart hplan,
    fun e he f hf name htype => hasConstraint_iff hextract hapart hplan he hf htype, ?_⟩
  intro i hi
  obtain ⟨hcalls, hturn⟩ := eachTurn_of_plan hsound hplan
  have hcall := (mem_wanted hsound).mpr (hcalls _ (List.getElem_mem hi))
  exact apply_ne_of_pending ((coherent_wanted hsound hapart).wanting _ hcall) (hturn.getElem i hi)

/-- The plan for authors and profiles realizes their model, with the key of the author of a profile. -/
theorem plan_complete_profilePlan :
    Realizes {} profileDocument profileModel (applyAll profilePlan (.empty "public")) ∧
      (applyAll profilePlan (.empty "public")).hasConstraint "profile" "profile_author_id_fkey" =
        true :=
  ⟨(plan_complete extract_profileDocument hashesApart_profileModel plan_profileModel).1,
    by decide +kernel⟩

/-- An entity with a text and a reference of the same name. -/
def sharedNameDocument : Document where
  types :=
    [ { kind := .object, name := "A", directives := [{ name := "entity" }]
        fields :=
          [ { name := "id", type := { name := "ID", nullable := false } },
            { name := "b", type := { name := "String" } },
            { name := "b", type := { name := "A" } } ] } ]

/-- The model of the entity: the text and the reference have columns of their own, and no relation holds the
key of the reference. -/
def sharedNameModel : Model where
  entities :=
    [ { name := "A"
        fields :=
          [ { name := "id", type := .scalar .id, nullable := false },
            { name := "b", type := .scalar .string },
            { name := "b", type := .reference "A" } ] } ]

/-- A reference field behind another field of its name gets a column, but no foreign key. -/
theorem reference_without_foreignKey :
    ∃ ops, extract sharedNameDocument = .ok sharedNameModel ∧ sharedNameModel.HashesApart ∧
      plan { timestamps := false } sharedNameModel (.empty "public") = .ok ops ∧
      ∃ e ∈ sharedNameModel.entities, ∃ f ∈ e.fields, f.type = .reference "A" ∧
        (applyAll ops (.empty "public")).hasConstraint e.tableName
          (Naming.foreignKeyConstraint e.tableName f.columnName) = false := by
  refine ⟨(plan { timestamps := false } sharedNameModel (.empty "public")).toOption.getD [],
    eq_ok_of_toOption (by decide +kernel), ⟨by decide +kernel, by decide +kernel⟩,
    eq_ok_of_toOption (by decide +kernel), _, List.mem_cons_self, { name := "b", type := .reference "A" },
    by decide, rfl, by decide +kernel⟩

end SchemaReconcile.Plan
