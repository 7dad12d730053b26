import Mathlib.Data.List.Pairwise
import SchemaReconcile.Proofs.Naming.Hashes
import SchemaReconcile.Proofs.Plan.Sound

/-!
# Resuming a plan

The operations that an extracted model calls for are coherent: no two enumerations share a type, and no two
relations tag one constraint.  The only way for them to do so is that two names have one short hash, which
`Model.HashesApart` excludes for the names that this model hashes.  So a plan that was carried out in part
is resumed with exactly what was left (`plan_resume`).
-/

namespace SchemaReconcile

open Naming (CollisionFree IsLong keyConstraintName)

/-- The names of the foreign keys of an entity that are too long to stand as they are. -/
def Entity.longKeyNames (e : Entity) : List String :=
  ((e.fields.filter EntityField.isReference).map fun f =>
    keyConstraintName e.tableName f.columnName).filter fun name => IsLong name

/-- The short hash tells the names apart that are hashed for a model: those of its enumerations, and those
of its foreign keys that are too long. -/
structure Model.HashesApart (m : Model) : Prop where
  enums : CollisionFree (m.enums.map (·.name))
  keys : CollisionFree (m.entities.flatMap Entity.longKeyNames)

namespace Plan

open Catalog (Operation Snapshot Fact)
open Catalog.Operation (applyAll)
open Settings (Options)

variable {options : Options} {m : Model}

/-! ## Facts with a text -/

/-- Labels are wanted for the type of an enumeration, and they are its values. -/
theorem Calls.labels_eq {op : Operation} (h : Calls options m op) {type : String} {labels : List String}
    (hf : Fact.labels type labels ∈ op.wants) :
    ∃ n ∈ m.enums, type = Naming.enumTypeOf options.schema n.name ∧ labels = n.values := by
  cases h with
  | enumType hn =>
    simp only [Operation.wants, List.mem_pair, reduceCtorEq, Fact.labels.injEq, false_or] at hf
    exact ⟨_, hn, hf⟩
  | _ => cases List.mem_singleton.mp hf

/-- A comment on a type is wanted for that of an enumeration, and it is the comment of that one. -/
theorem Calls.typeComment_eq {op : Operation} (h : Calls options m op) {type comment : String}
    (hf : Fact.typeComment type comment ∈ op.wants) :
    ∃ n ∈ m.enums, type = Naming.enumTypeOf options.schema n.name ∧ comment = n.comment := by
  cases h with
  | typeComment hn => exact ⟨_, hn, Fact.typeComment.inj (List.mem_singleton.mp hf)⟩
  | enumType => simp [Operation.wants] at hf
  | _ => cases List.mem_singleton.mp hf

/-- A comment on a constraint is wanted for the key that a relation reads, and it has its tags. -/
theorem Calls.constraintComment_eq {op : Operation} (h : Calls options m op)
    {table constraint comment : String}
    (hf : Fact.constraintComment table constraint comment ∈ op.wants) :
    ∃ r ∈ m.relations, r.kind ≠ .belongsTo ∧ ∃ e t owner target f g,
      Joins options m r e t owner target f g ∧ table = owner.table ∧
      constraint = Naming.foreignKeyConstraint owner.table (keyColumnOf r) ∧
      comment = relationTags r := by
  cases h with
  | keyComment hr hjoins hkind =>
    exact ⟨_, hr, hkind, _, _, _, _, _, _, hjoins,
      Fact.constraintComment.inj (List.mem_singleton.mp hf)⟩
  | enumType => simp [Operation.wants] at hf
  | _ => cases List.mem_singleton.mp hf

/-! ## Coherence -/

/-- Enumerations with one type are the same. -/
theorem eq_of_enumTypeOf (h : m.Sound) (hapart : m.HashesApart) {n n' : Enumeration}
    (hn : n ∈ m.enums) (hn' : n' ∈ m.enums) {schema : String}
    (htype : Naming.enumTypeOf schema n.name = Naming.enumTypeOf schema n'.name) : n = n' := by
  have hname : n.name = n'.name :=
    hapart.enums _ (List.mem_map.mpr ⟨n, hn, rfl⟩) _ (List.mem_map.mpr ⟨n', hn', rfl⟩)
      (Naming.shortHash_eq_of_enumTypeOf_eq htype)
  exact List.inj_on_of_nodup_map h.enums hn hn' hname

/-- Enumerations have types of their own. -/
theorem nodup_enumTypes (h : m.Sound) (hapart : m.HashesApart) (schema : String) :
    (m.enums.map fun n => Naming.enumTypeOf schema n.name).Nodup :=
  h.enums.of_map.map_on fun _ hn _ hk htype => eq_of_enumTypeOf h hapart hn hk htype

/-- The name of the foreign key of a reference field is hashed if it is too long. -/
theorem mem_longKeyNames {e : Entity} (he : e ∈ m.entities) {f : EntityField} (hf : f ∈ e.fields)
    {name : String} (htype : f.type = .reference name)
    (hlong : IsLong (keyConstraintName e.tableName f.columnName)) :
    keyConstraintName e.tableName f.columnName ∈ m.entities.flatMap Entity.longKeyNames := by
  refine List.mem_flatMap.mpr ⟨e, he, List.mem_filter.mpr ⟨?_, by simpa using hlong⟩⟩
  refine List.mem_map.mpr ⟨f, List.mem_filter.mpr ⟨hf, ?_⟩, rfl⟩
  simp [EntityField.isReference, htype, FieldType.reference?]

/-- The name of the foreign key of a relation is hashed if it is too long. -/
theorem Joins.mem_longKeyNames {r : Relation} {e t : Entity} {owner target : CompiledEntity}
    {f : EntityField} {g : CompiledField} (h : Joins options m r e t owner target f g)
    (hlong : IsLong (keyConstraintName owner.table (keyColumnOf r))) :
    keyConstraintName owner.table (keyColumnOf r) ∈ m.entities.flatMap Entity.longKeyNames := by
  rw [(Entity.compile_ok h.ownerCompiled).2.1, ← h.columnName] at hlong ⊢
  exact Plan.mem_longKeyNames h.ownerMem h.mem_fields h.reference hlong

/-- Relations that read one constraint of one table backwards are the same. -/
theorem eq_of_constraint (h : m.Sound) (hapart : m.HashesApart) {r r' : Relation}
    (hr : r ∈ m.relations) (hr' : r' ∈ m.relations) (hkind : r.kind ≠ .belongsTo)
    (hkind' : r'.kind ≠ .belongsTo) {e t e' t' : Entity} {owner target owner' target' : CompiledEntity}
    {f f' : EntityField} {g g' : CompiledField} (hjoins : Joins options m r e t owner target f g)
    (hjoins' : Joins options m r' e' t' owner' target' f' g') (htable : owner.table = owner'.table)
    (hconstraint : Naming.foreignKeyConstraint owner.table (keyColumnOf r) =
      Naming.foreignKeyConstraint owner'.table (keyColumnOf r')) : r = r' := by
  have hentity : e = e' := by
    refine List.inj_on_of_nodup_map h.tables hjoins.ownerMem hjoins'.ownerMem ?_
    rw [← (Entity.compile_ok hjoins.ownerCompiled).2.1,
      ← (Entity.compile_ok hjoins'.ownerCompiled).2.1, htable]
  subst hentity
  have hcolumn : keyColumnOf r = keyColumnOf r' := by
    rw [← htable] at hconstraint
    refine Naming.column_eq_of_foreignKeyConstraint_eq hconstraint hapart.keys ?_
    intro column hmem hlong
    rcases List.mem_pair.mp hmem with rfl | rfl
    · exact hjoins.mem_longKeyNames hlong
    · rw [htable] at hlong ⊢
      exact hjoins'.mem_longKeyNames hlong
  have hfield : f = f' := by
    refine (h.entity e hjoins.ownerMem).eq_of_columnName hjoins.mem_fields hjoins'.mem_fields ?_
    rw [hjoins.columnName, hjoins'.columnName, hcolumn]
  -- both relations read the key of the same field, which no two relations do
  have htarget : r.target = r'.target := by
    have hname : r.keyOwner = r'.keyOwner := hjoins.ownerName.symm.trans hjoins'.ownerName
    simpa [Relation.keyOwner, hkind, hkind'] using hname
  have hkey : r.foreignKey = r'.foreignKey := by
    rw [hjoins.foreignKey, hjoins'.foreignKey, hfield]
  by_contra hne
  exact h.apart.forall hr hr' hne hkind hkind' (Prod.ext htarget hkey)

/-- The operations that an extracted model calls for are coherent. -/
theorem coherent_wanted (h : m.Sound) (hapart : m.HashesApart) : Coherent (wanted options m) := by
  refine ⟨?_, ?_⟩
  · intro op hop
    cases (mem_wanted h).mp hop <;> exact List.cons_ne_nil _ _
  · intro a ha b hb f hf hover
    have hcallsA := (mem_wanted h).mp ha
    have hcallsB := (mem_wanted h).mp hb
    cases hcallsA with
    | enumType hn =>
      cases f with
      | labels type labels =>
        obtain ⟨n', hn', htype, rfl⟩ := hcallsB.labels_eq hf
        obtain ⟨rfl, hne⟩ := hover
        obtain rfl := eq_of_enumTypeOf h hapart hn hn' htype
        exact hne rfl
      | _ => exact hover
    | typeComment hn =>
      cases f with
      | typeComment type comment =>
        obtain ⟨n', hn', htype, rfl⟩ := hcallsB.typeComment_eq hf
        obtain ⟨rfl, hne⟩ := hover
        obtain rfl := eq_of_enumTypeOf h hapart hn hn' htype
        exact hne rfl
      | _ => exact hover
    | keyComment hr hjoins hkind =>
      cases f with
      | constraintComment table constraint comment =>
        obtain ⟨r', hr', hkind', e', t', owner', target', f', g', hjoins', htable, hconstraint, rfl⟩ :=
          hcallsB.constraintComment_eq hf
        obtain ⟨⟨rfl, rfl⟩, hne⟩ := hover
        obtain rfl := eq_of_constraint h hapart hr hr' hkind hkind' hjoins hjoins' htable hconstraint
        exact hne rfl
      | _ => exact hover
    | _ => cases f <;> exact hover

/-! ## Resuming -/

/-- After the first operations of a plan were carried out, planning gives exactly the others; after all of
them it gives none. -/
theorem plan_resume {d : Document} (hextract : extract d = .ok m) (hapart : m.HashesApart)
    {s : Snapshot} {ops : List Operation} (hplan : plan options m s = .ok ops) :
    (∀ k, plan options m (applyAll (ops.take k) s) = .ok (ops.drop k)) ∧
      plan options m (applyAll ops s) = .ok [] := by
  have hsound := extract_sound hextract
  obtain ⟨hlimit, hsettle⟩ := (plan_ok_iff hsound).mp hplan
  have hresume : ∀ k, plan options m (applyAll (ops.take k) s) = .ok (ops.drop k) := fun k =>
    (plan_ok_iff hsound).mpr ⟨hlimit, settle_resume (coherent_wanted hsound hapart) hsettle k⟩
  refine ⟨hresume, ?_⟩
  simpa using hresume ops.length

/-- The short hash tells the names of authors and profiles apart. -/
theorem hashesApart_profileModel : profileModel.HashesApart :=
  ⟨by decide +kernel, by decide +kernel⟩

/-- After three operations of the plan for authors and profiles, planning gives the other ones. -/
theorem plan_resume_profilePlan : 3 < profilePlan.length ∧
    plan {} profileModel (applyAll (profilePlan.take 3) (.empty "public")) =
      .ok (profilePlan.drop 3) :=
  ⟨by decide +kernel,
    (plan_resume extract_profileDocument hashesApart_profileModel plan_profileModel).1 3⟩

end Plan

end SchemaReconcile
