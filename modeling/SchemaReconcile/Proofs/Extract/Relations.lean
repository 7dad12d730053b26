import SchemaReconcile.Extract.Relations
import SchemaReconcile.Proofs.Results

/-!
# Inferred relations

What a field yields depends on the fields before it in one way only: a field that is a source already is
refused.  So the inferred relations are those that each field yields by itself (`relationOf?`), and the
sources of derived fields are pairwise different.
-/

namespace SchemaReconcile

/-- The field that a derived field points at, with its entity. -/
def sourceOf? (f : FieldDeclaration) : Option (String × String) :=
  f.derivedFrom?.map fun u => (f.type.name, backField u)

/-- The relation that a reference field of an entity yields. -/
def belongsToOf (entity : Entity) (target name : String) : Relation where
  source := entity.name
  target := target
  kind := .belongsTo
  foreignKey := EntityField.keyName name
  fieldName := name

/-- The kind of relation that reads a field backwards. -/
def inverseKind (entities : List Entity) (target back : String) : RelationKind :=
  let unique := match entities.find? fun e => e.name == target with
    | some e => (e.indexFlags back).unique
    | none => none
  if unique = some true then .hasOne else .hasMany

/-- The relation that a derived field of an entity yields. -/
def inverseOf (entities : List Entity) (entity : Entity) (f : FieldDeclaration) (back : String) :
    Relation where
  source := entity.name
  target := f.type.name
  kind := inverseKind entities f.type.name back
  foreignKey := EntityField.keyName back
  fieldName := f.name

/-- The relation that a field yields, whatever the sources are. -/
def relationOf? (entities : List Entity) (entity : Entity) (f : FieldDeclaration) : Option Relation :=
  match f.derivedFrom? with
  | some u => some (inverseOf entities entity f (backField u))
  | none =>
    match entity.field? f.name with
    | some stored =>
      match stored.type with
      | .reference target => some (belongsToOf entity target stored.name)
      | _ => none
    | none => none

variable {entities : List Entity}

/-- A relation that reads a field backwards never holds the key itself. -/
theorem inverseKind_ne_belongsTo (entities : List Entity) (target back : String) :
    inverseKind entities target back ≠ .belongsTo := by
  unfold inverseKind
  dsimp only
  split <;> split <;> exact RelationKind.noConfusion

/-- A field yields its relation, and joins the sources if it is derived; it was no source before. -/
theorem inferField_ok {entity : Entity} {sources sources' : List (String × String)}
    {f : FieldDeclaration} {found : Option Inferred}
    (h : inferField entities entity sources f = .ok (found, sources')) :
    found.map Inferred.relation = relationOf? entities entity f ∧
      sources' = (sourceOf? f).toList ++ sources ∧ ∀ s ∈ sourceOf? f, s ∉ sources := by
  unfold inferField at h
  unfold relationOf? sourceOf?
  cases hf : f.derivedFrom? with
  | none =>
    rw [hf] at h
    dsimp only at h ⊢
    cases hfield : entity.field? f.name with
    | none =>
      rw [hfield] at h
      obtain ⟨rfl, rfl⟩ := Prod.mk.inj (Except.ok.inj h)
      simp
    | some stored =>
      rw [hfield] at h
      dsimp only at h ⊢
      cases htype : stored.type <;> rw [htype] at h <;>
        obtain ⟨rfl, rfl⟩ := Prod.mk.inj (Except.ok.inj h) <;> simp [belongsToOf]
  | some u =>
    rw [hf] at h
    dsimp only at h ⊢
    split at h
    · cases h
    · next hfresh =>
      obtain ⟨rfl, rfl⟩ := Prod.mk.inj (Except.ok.inj h)
      refine ⟨rfl, rfl, ?_⟩
      simpa using hfresh

/-- A field that is no source already yields something. -/
theorem exists_inferField (entities : List Entity) (entity : Entity) {sources : List (String × String)}
    {f : FieldDeclaration} (h : ∀ s ∈ sourceOf? f, s ∉ sources) :
    ∃ found, inferField entities entity sources f = .ok (found, (sourceOf? f).toList ++ sources) := by
  unfold inferField
  unfold sourceOf? at h ⊢
  cases hf : f.derivedFrom? with
  | none =>
    cases hfield : entity.field? f.name with
    | none => exact ⟨none, rfl⟩
    | some stored =>
      dsimp only
      cases stored.type <;> exact ⟨_, rfl⟩
  | some u =>
    have hfresh : ¬ sources.contains (f.type.name, backField u) = true := by
      simpa [hf] using h
    simp only [if_neg hfresh]
    exact ⟨_, rfl⟩

/-- Fields yield the relations that each of them yields by itself, and the sources of derived fields are
pairwise different. -/
theorem inferFields_ok {pairs : List (Entity × FieldDeclaration)} {sources : List (String × String)}
    {found : List Inferred} (h : inferFields entities sources pairs = (found, none)) :
    found.map Inferred.relation = pairs.filterMap (fun p => relationOf? entities p.1 p.2) ∧
      (pairs.filterMap fun p => sourceOf? p.2).Nodup ∧
      ∀ s ∈ pairs.filterMap (fun p => sourceOf? p.2), s ∉ sources := by
  induction pairs generalizing sources found with
  | nil =>
    obtain rfl := (Prod.mk.inj h).1
    simp
  | cons pair rest ih =>
    obtain ⟨entity, f⟩ := pair
    rw [inferFields] at h
    split at h
    · cases h
    · next first sources' hfirst =>
      obtain ⟨rfl, hfault⟩ := Prod.mk.inj h
      obtain ⟨hrelation, rfl, hfresh⟩ := inferField_ok hfirst
      obtain ⟨hrest, hnodup, hapart⟩ := ih (Prod.ext rfl hfault)
      rw [filterMap_cons_toList, filterMap_cons_toList]
      refine ⟨?_, List.nodup_append.mpr ⟨Option.toList_nodup _, hnodup, ?_⟩, ?_⟩
      · rw [List.map_append, hrest, ← hrelation]
        cases first <;> rfl
      · rintro s hs _ hs' rfl
        exact hapart s hs' (List.mem_append_left _ hs)
      · intro s hmem hold
        rcases List.mem_append.mp hmem with hs | hs
        · exact hfresh s (Option.mem_toList.mp hs) hold
        · exact hapart s hs (List.mem_append_right _ hold)

/-- Fields whose sources are different, and were none before, yield relations without a fault. -/
theorem exists_inferFields (entities : List Entity) {pairs : List (Entity × FieldDeclaration)}
    {sources : List (String × String)} (hnodup : (pairs.filterMap fun p => sourceOf? p.2).Nodup)
    (hfresh : ∀ s ∈ pairs.filterMap (fun p => sourceOf? p.2), s ∉ sources) :
    ∃ found, inferFields entities sources pairs = (found, none) := by
  induction pairs generalizing sources with
  | nil => exact ⟨[], rfl⟩
  | cons pair rest ih =>
    obtain ⟨entity, f⟩ := pair
    rw [filterMap_cons_toList] at hnodup hfresh
    obtain ⟨-, hrest, hapart⟩ := List.nodup_append.mp hnodup
    obtain ⟨first, hfirst⟩ := exists_inferField entities entity fun s hs =>
      hfresh s (List.mem_append_left _ (Option.mem_toList.mpr hs))
    obtain ⟨later, hlater⟩ := @ih ((sourceOf? f).toList ++ sources) hrest fun s hs hmem => by
      rcases List.mem_append.mp hmem with hown | hold
      · exact hapart s hown s hs rfl
      · exact hfresh s (List.mem_append_right _ hs) hold
    refine ⟨first.toList ++ later, ?_⟩
    rw [inferFields, hfirst]
    dsimp only
    rw [hlater]

/-- The names of foreign key attributes are as different as the fields are. -/
theorem EntityField.keyName_injective : Function.Injective EntityField.keyName := by
  intro a b h
  have hlist : a.toList ++ "Id".toList = b.toList ++ "Id".toList := by
    simpa [keyName] using congrArg String.toList h
  exact String.toList_injective (List.append_cancel_right hlist)

/-- Two relations that read a foreign key backwards read different ones. -/
def ReadsApart (r q : Relation) : Prop :=
  r.kind ≠ .belongsTo → q.kind ≠ .belongsTo → (r.target, r.foreignKey) ≠ (q.target, q.foreignKey)

/-- It does not matter which of two relations comes first. -/
instance : Std.Symm ReadsApart :=
  ⟨fun _ _ hapart hq hr heq => hapart hr hq heq.symm⟩

/-- A relation that holds no key itself reads the source of a derived field. -/
theorem exists_source_of_relationOf {entity : Entity} {f : FieldDeclaration} {r : Relation}
    (h : relationOf? entities entity f = some r) (hkind : r.kind ≠ .belongsTo) :
    ∃ back, sourceOf? f = some (r.target, back) ∧ r.foreignKey = EntityField.keyName back := by
  unfold relationOf? at h
  split at h
  · next u hu =>
    obtain rfl := Option.some.inj h
    exact ⟨backField u, by simp [sourceOf?, hu, inverseOf], rfl⟩
  · split at h
    · split at h
      · obtain rfl := Option.some.inj h
        exact absurd rfl hkind
      · cases h
    · cases h

/-- A derived field yields a relation that reads its source. -/
theorem exists_relationOf_of_source {entity : Entity} {f : FieldDeclaration} {s : String × String}
    (h : sourceOf? f = some s) : ∃ r, relationOf? entities entity f = some r ∧ r.kind ≠ .belongsTo ∧
      (r.target, r.foreignKey) = (s.1, EntityField.keyName s.2) := by
  obtain ⟨u, hu, rfl⟩ := Option.map_eq_some_iff.mp h
  refine ⟨inverseOf entities entity f (backField u), ?_, inverseKind_ne_belongsTo _ _ _, rfl⟩
  rw [relationOf?, hu]

/-- The sources of derived fields are different exactly when the relations that they yield are apart. -/
theorem sources_nodup_iff {pairs : List (Entity × FieldDeclaration)} :
    (pairs.filterMap fun p => sourceOf? p.2).Nodup ↔
      (pairs.filterMap fun p => relationOf? entities p.1 p.2).Pairwise ReadsApart := by
  rw [List.Nodup, List.pairwise_filterMap, List.pairwise_filterMap]
  constructor
  · refine List.Pairwise.imp ?_
    intro p q hpq r hr r' hr' hkind hkind' heq
    obtain ⟨back, hs, hkey⟩ := exists_source_of_relationOf hr hkind
    obtain ⟨back', hs', hkey'⟩ := exists_source_of_relationOf hr' hkind'
    obtain ⟨htarget, hforeign⟩ := Prod.mk.inj heq
    rw [hkey, hkey'] at hforeign
    exact hpq _ hs _ hs' (Prod.ext htarget (EntityField.keyName_injective hforeign))
  · refine List.Pairwise.imp ?_
    rintro p q hpq s hs _ hs' rfl
    obtain ⟨r, hr, hkind, hread⟩ := exists_relationOf_of_source hs
    obtain ⟨r', hr', hkind', hread'⟩ := exists_relationOf_of_source hs'
    exact hpq r hr r' hr' hkind hkind' (hread.trans hread'.symm)

/-- The relations of checked declarations, one for each declared field that yields one. -/
theorem inferRelations_ok {ds : Declarations} {found : List Inferred}
    (h : inferRelations ds entities = (found, none)) :
    found.map Inferred.relation =
        (declaredFields ds entities).filterMap (fun p => relationOf? entities p.1 p.2) ∧
      (found.map Inferred.relation).Pairwise ReadsApart := by
  obtain ⟨hrelations, hsources, -⟩ := inferFields_ok h
  refine ⟨hrelations, ?_⟩
  rw [hrelations]
  exact sources_nodup_iff.mp hsources

/-- Relations that are apart are inferred without a fault. -/
theorem exists_inferRelations {ds : Declarations}
    (h : ((declaredFields ds entities).filterMap fun p => relationOf? entities p.1 p.2).Pairwise ReadsApart) :
    ∃ found, inferRelations ds entities = (found, none) :=
  exists_inferFields entities (sources_nodup_iff.mpr h) fun _ _ => List.not_mem_nil

end SchemaReconcile
