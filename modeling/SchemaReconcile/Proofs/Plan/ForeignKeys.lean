import SchemaReconcile.Proofs.Compile.Columns
import SchemaReconcile.Proofs.Compile.Relations
import SchemaReconcile.Proofs.Plan.Taken

/-!
# Foreign keys of a plan

Up to two relations are about the key of a reference field: the one that holds the key, and the one that reads
it backwards.  Both ask for the same operation (`Joins.keyOf`), so the key is added once.

A field is looked up by its name, so relations are about the fields that this lookup finds; a plan for a
schema that does not exist has the keys of these fields, one for each (`mirror_found`), and misses that of a
reference field behind another field of its name.  The comments on keys do not depend on this: they are those of
the derived fields, in their order (`forall₂_comments`).
-/

namespace SchemaReconcile

/-- The stored reference fields of a model, each with its entity. -/
def Model.references (m : Model) : List (Entity × EntityField) :=
  m.entities.flatMap fun e => (e.fields.filter EntityField.isReference).map fun f => (e, f)

/-- The lookup of its name finds a field. -/
def Entity.finds (e : Entity) (f : EntityField) : Bool := e.field? f.name == some f

/-- The derived fields of a document, each with the declaration of its entity. -/
def Document.derivedFields (d : Document) : List (TypeDeclaration × FieldDeclaration) :=
  (d.types.filter fun t => t.role? = some .entity).flatMap fun t =>
    (t.fields.filter fun f => !f.isStored).map fun f => (t, f)

/-- A reference field stands with its entity. -/
theorem Model.mem_references {m : Model} {p : Entity × EntityField} :
    p ∈ m.references ↔ p.1 ∈ m.entities ∧ p.2 ∈ p.1.fields ∧ p.2.isReference = true := by
  simp only [references, List.mem_flatMap, List.mem_map, List.mem_filter, Prod.ext_iff]
  constructor
  · rintro ⟨e, he, f, ⟨hf, hrefers⟩, rfl, rfl⟩
    exact ⟨he, hf, hrefers⟩
  · rintro ⟨he, hf, hrefers⟩
    exact ⟨p.1, he, p.2, ⟨hf, hrefers⟩, rfl, rfl⟩

namespace Plan

open Catalog (Operation Snapshot Fact)
open Settings (Options)

variable {options : Options} {m : Model} {ops : List Operation}

/-! ## The key of a reference field -/

/-- An operation adds a foreign key. -/
def addsKey : Operation → Bool
  | .addForeignKey .. => true
  | _ => false

/-- An operation comments on a constraint. -/
def commentsOnKey : Operation → Bool
  | .commentOnConstraint .. => true
  | _ => false

/-- What a foreign key does by the definition of its column: it follows the row that it refers to if the column
holds no null, and else becomes null. -/
def columnAction (column : Sql.Column) : String :=
  if column.saysNotNull true then "CASCADE" else "SET NULL"

/-- An operation adds the key of a reference field: on the table of its entity and on its column, to the table of
the entity that it refers to and the column of the identifier there.  What the key does depends on the column as
the plan creates it. -/
def KeyOf (options : Options) (m : Model) (ops : List Operation) (e : Entity) (f : EntityField)
    (op : Operation) : Prop :=
  ∃ t ∈ m.entities, f.type = .reference t.name ∧ ∃ id, t.primaryKeys = [id] ∧ ∃ columns column,
    .createTable options.schema e.tableName columns e.description ∈ ops ∧ column ∈ columns ∧
    column.name = f.columnName ∧
    op = .addForeignKey options.schema e.tableName
      (Naming.foreignKeyConstraint e.tableName f.columnName) f.columnName t.tableName id.columnName
      (columnAction column)

/-- The key of a reference field is for a constraint of its table. -/
theorem KeyOf.wants {e : Entity} {f : EntityField} {op : Operation} (h : KeyOf options m ops e f op) :
    .constraint e.tableName (Naming.foreignKeyConstraint e.tableName f.columnName) ∈ op.wants.head? := by
  obtain ⟨_, -, -, _, -, _, _, -, -, -, rfl⟩ := h
  rfl

/-- Operations mirror reference fields: some reordering of those that add a key has the keys of the fields, one
by one. -/
def Mirror (options : Options) (m : Model) (ops : List Operation) (fields : List (Entity × EntityField)) :
    Prop :=
  ∃ keys, keys.Perm (ops.filter addsKey) ∧
    List.Forall₂ (fun p op => KeyOf options m ops p.1 p.2 op) fields keys

namespace Joins

variable {r : Relation} {e t : Entity} {owner target : CompiledEntity} {f : EntityField}
  {g : CompiledField}

/-- The compiled field of the key is that of the field, and its column is one of the table. -/
theorem exists_column (h : Joins options m r e t owner target f g) (hm : m.Sound) (timestamps : Bool) :
    g.declared = f ∧ ∃ column ∈ owner.columns timestamps, column.name = f.columnName ∧
      columnAction column = deleteAction g := by
  have hrefers : f.isReference = true := f.isReference_iff.mpr ⟨_, h.reference⟩
  obtain ⟨k, honly, hdeclared, -⟩ := Entity.exists_only_keyField h.ownerCompiled
    (hm.entity e h.ownerMem).columns.nodup h.mem_fields hrefers
  have hkey : k = g := by
    have hfind := h.keyField
    rw [keyField?, ← List.head?_filter, ← h.columnName, honly] at hfind
    exact Option.some.inj hfind
  subst hkey
  have hk : k ∈ owner.fields := List.mem_of_find?_eq_some h.keyField
  have hprimary : k.isPrimaryKey = false := by
    rw [CompiledField.isPrimaryKey, hdeclared, EntityField.isPrimaryKey, h.reference]
    rfl
  refine ⟨hdeclared, k.toColumn, List.mem_append_left _ (List.mem_map_of_mem hk), ?_, ?_⟩
  · rw [← hdeclared]
    exact Entity.column_eq h.ownerCompiled hk
  · simp only [columnAction, Sql.Column.saysNotNull, CompiledField.toColumn, hprimary, deleteAction]
    cases k.declared.nullable <;> rfl

/-- A relation asks for the key of its field. -/
theorem keyOf (h : Joins options m r e t owner target f g) (hm : m.Sound)
    (hplan : plan options m (.empty options.schema) = .ok ops) :
    KeyOf options m ops e f (relationPart options.schema owner target g r).key := by
  obtain ⟨id, hid⟩ := List.length_eq_one_iff.mp (hm.entity t h.targetMem).key
  obtain ⟨-, column, hcolumn, hname, haction⟩ := h.exists_column hm options.timestamps
  obtain ⟨-, htable, hdescription, -⟩ := Entity.compile_ok h.ownerCompiled
  have hcreated := createTable_mem_plan hm hplan h.ownerMem h.ownerCompiled rfl
  rw [htable, hdescription] at hcreated
  have hkey : target.keyColumn = id.columnName := by
    have hfind : t.primaryKey? = some id := by
      rw [Entity.primaryKey?, ← List.head?_filter, ← Entity.primaryKeys, hid]
      rfl
    rw [Entity.primaryKey?_eq h.targetCompiled] at hfind
    obtain ⟨k, hk, rfl⟩ := Option.map_eq_some_iff.mp hfind
    rw [CompiledEntity.keyColumn, hk]
    exact Entity.column_eq h.targetCompiled (List.mem_of_find?_eq_some hk)
  refine ⟨t, h.targetMem, h.targetName ▸ h.reference, id, hid, _, column, hcreated, hcolumn, hname, ?_⟩
  rw [relationPart, htable, ← h.columnName, (Entity.compile_ok h.targetCompiled).2.1, hkey, haction]

/-- Relations about the key of one field ask for the same operation. -/
theorem key_eq (h : Joins options m r e t owner target f g) (hm : m.Sound) {r' : Relation} {t' : Entity}
    {owner' target' : CompiledEntity} {g' : CompiledField}
    (h' : Joins options m r' e t' owner' target' f g') :
    (relationPart options.schema owner target g r).key =
      (relationPart options.schema owner' target' g' r').key := by
  have hname : t.name = t'.name := by
    rw [h.targetName, h'.targetName]
    exact FieldType.reference.inj (h.reference.symm.trans h'.reference)
  obtain rfl : t = t' := List.inj_on_of_nodup_map hm.entities h.targetMem h'.targetMem hname
  obtain rfl : owner = owner' := Except.ok.inj (h.ownerCompiled.symm.trans h'.ownerCompiled)
  obtain rfl : target = target' := Except.ok.inj (h.targetCompiled.symm.trans h'.targetCompiled)
  have hcolumn : keyColumnOf r = keyColumnOf r' := h.columnName.symm.trans h'.columnName
  have hfind := h.keyField
  rw [hcolumn] at hfind
  obtain rfl : g = g' := Option.some.inj (hfind.symm.trans h'.keyField)
  rw [relationPart, relationPart, hcolumn]

/-- The field of a relation is a reference field that the lookup of its name finds. -/
theorem mem_references (h : Joins options m r e t owner target f g) :
    (e, f) ∈ m.references ∧ e.finds f = true :=
  ⟨Model.mem_references.mpr ⟨h.ownerMem, h.mem_fields, f.isReference_iff.mpr ⟨_, h.reference⟩⟩,
    beq_iff_eq.mpr h.field⟩

end Joins

/-- Reference fields whose keys have one name on one table are the same. -/
theorem eq_of_keyName (h : m.Sound) (hapart : m.HashesApart) {p q : Entity × EntityField}
    (hp : p ∈ m.references) (hq : q ∈ m.references) (htable : p.1.tableName = q.1.tableName)
    (hname : Naming.foreignKeyConstraint p.1.tableName p.2.columnName =
      Naming.foreignKeyConstraint q.1.tableName q.2.columnName) : p = q := by
  obtain ⟨e, f⟩ := p
  obtain ⟨e', f'⟩ := q
  obtain ⟨he, hf, hrefers⟩ := Model.mem_references.mp hp
  obtain ⟨he', hf', hrefers'⟩ := Model.mem_references.mp hq
  obtain rfl : e = e' := List.inj_on_of_nodup_map h.tables he he' htable
  obtain ⟨target, htype⟩ := f.isReference_iff.mp hrefers
  obtain ⟨target', htype'⟩ := f'.isReference_iff.mp hrefers'
  have hcolumn : f.columnName = f'.columnName := by
    refine Naming.column_eq_of_foreignKeyConstraint_eq hname hapart.keys ?_
    intro column hmem hlong
    rcases List.mem_pair.mp hmem with rfl | rfl
    · exact mem_longKeyNames he hf htype hlong
    · exact mem_longKeyNames he hf' htype' hlong
  exact Prod.ext rfl ((h.entity e he).eq_of_columnName hf hf' hcolumn)

/-- An operation that adds the keys of two reference fields adds that of one. -/
theorem eq_of_keyOf (h : m.Sound) (hapart : m.HashesApart) {p q : Entity × EntityField} {op : Operation}
    (hp : p ∈ m.references) (hq : q ∈ m.references) (hkey : KeyOf options m ops p.1 p.2 op)
    (hkey' : KeyOf options m ops q.1 q.2 op) : p = q := by
  obtain ⟨htable, hname⟩ := Fact.constraint.inj (Option.mem_unique hkey.wants hkey'.wants)
  exact eq_of_keyName h hapart hp hq htable hname

/-- No reference field stands twice. -/
theorem nodup_references (h : m.Sound) : m.references.Nodup := by
  refine List.nodup_flatMap.mpr ⟨?_, ?_⟩
  · intro e he
    have hfields : e.fields.Nodup := (h.entity e he).columns.nodup.of_map
    exact (hfields.filter _).map fun f f' heq => (Prod.mk.inj heq).2
  · refine h.entities.of_map.imp ?_
    intro e e' hne p hp hp'
    obtain ⟨f, -, rfl⟩ := List.mem_map.mp hp
    obtain ⟨f', -, heq⟩ := List.mem_map.mp hp'
    exact hne (Prod.mk.inj heq).1.symm

/-- What is not deferred and gives a table the constraint of a foreign key is the key of a relation. -/
theorem Calls.eq_key {op : Operation} (h : Calls options m op) (hphase : op.phase ≠ .deferred)
    {table column : String}
    (hf : Fact.constraint table (Naming.foreignKeyConstraint table column) ∈ op.effects) :
    ∃ r ∈ m.relations, ∃ e t owner target f g, Joins options m r e t owner target f g ∧
      table = owner.table ∧ op = (relationPart options.schema owner target g r).key := by
  cases h with
  | table he hc =>
    simp only [Operation.effects, List.cons_append, List.mem_cons, reduceCtorEq, List.mem_append,
      List.mem_map, and_false, exists_false, false_or, Catalog.Operation.mem_keyEffects,
      Fact.constraint.injEq, or_false] at hf
    obtain ⟨-, rfl, hname⟩ := hf
    exact absurd hname.symm (primaryKeyName_ne_foreignKeyConstraint _ _)
  | key hr hjoins =>
    exact ⟨_, hr, _, _, _, _, _, _, hjoins, (Fact.constraint.inj (List.mem_singleton.mp hf)).1, rfl⟩
  | keyComment hr hjoins hkind => exact absurd rfl hphase
  | enumType => simp [Operation.effects, Operation.wants] at hf
  | column => simp [Operation.effects] at hf
  | _ => cases List.mem_singleton.mp hf

/-- Only relations add keys. -/
theorem Calls.eq_key_of_addsKey {op : Operation} (h : Calls options m op) (hadds : addsKey op = true) :
    ∃ r ∈ m.relations, ∃ e t owner target f g, Joins options m r e t owner target f g ∧
      op = (relationPart options.schema owner target g r).key := by
  cases h with
  | key hr hjoins => exact ⟨_, hr, _, _, _, _, _, _, hjoins, rfl⟩
  | _ => cases hadds

/-! ## Keys in a plan -/

/-- The operations of a model before those that are deferred. -/
def undeferred (options : Options) (m : Model) : List Operation :=
  (outlineOf options m).types ++
    ((outlineOf options m).tables ++ (outlineOf options m).relations.map RelationPart.key)

/-- The operations of a model are those that are not deferred, and then the others. -/
theorem wanted_eq (options : Options) (m : Model) :
    wanted options m =
      undeferred options m ++ (outlineOf options m).relations.flatMap RelationPart.late := by
  simp only [wanted, Outline.sorted, undeferred, List.append_assoc]

/-- The operations before those that are deferred do not belong to the last phase. -/
theorem phase_of_mem_undeferred {op : Operation} (hop : op ∈ undeferred options m) :
    op.phase ≠ .deferred := by
  have hsound := outline_sound options m (compiledEntities options m)
  simp only [undeferred, List.mem_append, List.mem_map] at hop
  obtain hop | hop | ⟨part, hpart, rfl⟩ := hop
  · simp [hsound.types op hop]
  · simp [hsound.tables op hop]
  · simp [phase_of_isKey (hsound.relations part hpart).isKey]

/-- A plan for a schema that does not exist has the key of every relation. -/
theorem key_mem_plan (h : m.Sound) (hapart : m.HashesApart)
    (hplan : plan options m (.empty options.schema) = .ok ops) {r : Relation} (hr : r ∈ m.relations)
    {e t : Entity} {owner target : CompiledEntity} {f : EntityField} {g : CompiledField}
    (hjoins : Joins options m r e t owner target f g) :
    (relationPart options.schema owner target g r).key ∈ ops := by
  have hmem : (relationPart options.schema owner target g r).key ∈ undeferred options m := by
    refine List.mem_append_right _ (List.mem_append_right _ (List.mem_map.mpr ⟨_, ?_, rfl⟩))
    exact (mem_outline_relations h).mpr ⟨r, hr, _, _, _, _, _, _, hjoins, rfl⟩
  -- the first operation that gives the table this constraint is the key itself
  obtain ⟨op, hfirst⟩ := (exists_isFirst (P := fun op : Operation => Fact.constraint owner.table
    (Naming.foreignKeyConstraint owner.table (keyColumnOf r)) ∈ op.effects)).mpr
      ⟨_, hmem, List.mem_singleton_self _⟩
  have hcalls : Calls options m op := by
    rw [← mem_wanted h, wanted_eq]
    exact List.mem_append_left _ hfirst.mem
  obtain ⟨r', hr', e', t', owner', target', f', g', hjoins', htable, rfl⟩ :=
    hcalls.eq_key (phase_of_mem_undeferred hfirst.mem) hfirst.holds
  have hname := (Fact.constraint.inj (List.mem_singleton.mp hfirst.holds)).2
  have howner : owner.table = e.tableName := (Entity.compile_ok hjoins.ownerCompiled).2.1
  have howner' : owner'.table = e'.tableName := (Entity.compile_ok hjoins'.ownerCompiled).2.1
  rw [howner, howner', ← hjoins.columnName, ← hjoins'.columnName] at hname
  obtain ⟨rfl, rfl⟩ := Prod.mk.inj (eq_of_keyName h hapart hjoins.mem_references.1
    hjoins'.mem_references.1 (howner.symm.trans (htable.trans howner')) hname)
  rw [hjoins.key_eq h hjoins']
  have hall := hfirst.append ((outlineOf options m).relations.flatMap RelationPart.late)
  rw [← wanted_eq] at hall
  exact mem_taken_of_isFirst ((plan_ok_iff h).mp hplan).2
    (by simp [Snapshot.Shows, Snapshot.hasConstraint, Snapshot.empty]) hall
    (by rw [htable, hjoins.columnName.symm.trans hjoins'.columnName]; rfl)

/-- No operation of a plan stands twice that is for a lasting fact. -/
theorem nodup_filter_of_wants {s : Snapshot} (hturn : EachTurn (fun op s => op.pending s = true) ops s)
    {p : Operation → Bool} (hwants : ∀ op ∈ ops, p op = true → ∃ f ∈ op.wants.head?, f.Lasting) :
    (ops.filter p).Nodup := by
  refine List.Pairwise.imp_of_mem ?_ ((pairwise_spares hturn).filter p)
  rintro op _ hop - hspares rfl
  obtain ⟨f, hf, hlasting⟩ := hwants op (List.mem_of_mem_filter hop) (List.of_mem_filter hop)
  exact hspares f hf hlasting (mem_effects_of_mem_wants (List.mem_of_mem_head? hf))

/-- An operation of a plan that adds a key adds that of a reference field that the lookup of its name finds. -/
theorem exists_keyOf (h : m.Sound) (hplan : plan options m (.empty options.schema) = .ok ops) {op : Operation}
    (hop : op ∈ ops) (hadds : addsKey op = true) :
    ∃ p ∈ m.references.filter (fun p => p.1.finds p.2), KeyOf options m ops p.1 p.2 op := by
  obtain ⟨r, -, e, t, owner, target, f, g, hjoins, rfl⟩ :=
    ((eachTurn_of_plan h hplan).1 op hop).eq_key_of_addsKey hadds
  exact ⟨(e, f), List.mem_filter.mpr hjoins.mem_references, hjoins.keyOf h hplan⟩

/-- A plan for a schema that does not exist has the key of a reference field that the lookup of its name
finds. -/
theorem exists_key {d : Document} (hextract : extract d = .ok m) (hapart : m.HashesApart)
    (hplan : plan options m (.empty options.schema) = .ok ops) {p : Entity × EntityField}
    (hp : p ∈ m.references.filter fun p => p.1.finds p.2) :
    ∃ op ∈ ops.filter addsKey, KeyOf options m ops p.1 p.2 op := by
  have hsound := extract_sound hextract
  obtain ⟨hp, hfinds⟩ := List.mem_filter.mp hp
  obtain ⟨he, -, hrefers⟩ := Model.mem_references.mp hp
  obtain ⟨target, htype⟩ := p.2.isReference_iff.mp hrefers
  have hr := belongsTo_mem_relations hextract he (beq_iff_eq.mp hfinds) htype
  obtain ⟨e, t, owner, target, f, g, hjoins, -⟩ := exists_joins hsound options hr
  obtain ⟨rfl, rfl⟩ := hjoins.of_belongsTo hsound he (beq_iff_eq.mp hfinds)
  exact ⟨_, List.mem_filter.mpr ⟨key_mem_plan hsound hapart hplan hr hjoins, rfl⟩,
    hjoins.keyOf hsound hplan⟩

/-- The foreign keys of a plan for a schema that does not exist mirror the reference fields that the lookup of
their names finds. -/
theorem mirror_found {d : Document} (hextract : extract d = .ok m) (hapart : m.HashesApart)
    (hplan : plan options m (.empty options.schema) = .ok ops) :
    Mirror options m ops (m.references.filter fun p => p.1.finds p.2) := by
  have hsound := extract_sound hextract
  obtain ⟨-, hturn⟩ := eachTurn_of_plan hsound hplan
  have hkeys : (ops.filter addsKey).Nodup := by
    refine nodup_filter_of_wants hturn fun op _ hadds => ?_
    cases op with
    | addForeignKey => exact ⟨_, rfl, trivial⟩
    | _ => cases hadds
  refine exists_perm_forall₂ ((nodup_references hsound).filter _) hkeys
    (fun p hp => exists_key hextract hapart hplan hp) ?_ ?_ ?_
  · intro op hop
    exact exists_keyOf hsound hplan (List.mem_of_mem_filter hop) (List.of_mem_filter hop)
  · intro p op hop op' hop' hkey hkey'
    exact eq_of_wants hturn (List.mem_of_mem_filter hop) (List.mem_of_mem_filter hop')
      (f := .constraint _ _) trivial hkey.wants hkey'.wants
  · intro p hp q hq op hkey hkey'
    exact eq_of_keyOf hsound hapart (List.mem_of_mem_filter hp) (List.mem_of_mem_filter hq) hkey hkey'

/-- The foreign keys mirror all reference fields exactly when each of them is found by its name. -/
theorem mirror_iff {d : Document} (hextract : extract d = .ok m) (hapart : m.HashesApart)
    (hplan : plan options m (.empty options.schema) = .ok ops) :
    Mirror options m ops m.references ↔ ∀ p ∈ m.references, p.1.finds p.2 = true := by
  have hsound := extract_sound hextract
  constructor
  · rintro ⟨keys, hperm, hall⟩ p hp
    obtain ⟨op, hop, hkey⟩ := exists_right_of_forall₂ hall hp
    obtain ⟨hop, hadds⟩ := List.mem_filter.mp (hperm.subset hop)
    obtain ⟨q, hq, hkey'⟩ := exists_keyOf hsound hplan hop hadds
    obtain rfl : p = q := eq_of_keyOf hsound hapart hp (List.mem_of_mem_filter hq) hkey hkey'
    exact (List.mem_filter.mp hq).2
  · intro hall
    have hmirror := mirror_found hextract hapart hplan
    rwa [List.filter_eq_self.mpr hall] at hmirror

/-! ## Comments on keys -/

/-- An operation comments on the key of a relation, with its tags. -/
def ReadComment (options : Options) (m : Model) (r : Relation) (op : Operation) : Prop :=
  ∃ e t owner target f g, Joins options m r e t owner target f g ∧
    op = .commentOnConstraint options.schema owner.table
      (Naming.foreignKeyConstraint owner.table (keyColumnOf r)) (relationTags r)

/-- The deferred comments are those of the relations that read a key backwards, in their order. -/
theorem forall₂_late (h : m.Sound) {relations : List Relation} (hrelations : ∀ r ∈ relations, r ∈ m.relations) :
    List.Forall₂ (ReadComment options m) (relations.filter fun r => !r.isHolder)
      (((relations.filterMap (relationPart? options.schema (compiledEntities options m))).flatMap
        RelationPart.late).filter commentsOnKey) := by
  induction relations with
  | nil => exact .nil
  | cons r rest ih =>
    obtain ⟨hr, hrest⟩ := List.forall_mem_cons.mp hrelations
    obtain ⟨e, t, owner, target, f, g, hjoins, hpart⟩ := exists_relationPart h options hr
    rw [List.filterMap_cons_some hpart, List.flatMap_cons, List.filter_append]
    cases hkind : r.kind with
    | belongsTo =>
      have hlate : (relationPart options.schema owner target g r).late.filter commentsOnKey = [] := by
        simp [relationPart, inverseOperations, hkind]
      rw [hlate, List.nil_append, List.filter_cons_of_neg (by simp [Relation.isHolder, hkind])]
      exact ih hrest
    | hasOne =>
      rw [List.filter_cons_of_pos (by simp [Relation.isHolder, hkind])]
      simp only [relationPart, inverseOperations, hkind]
      exact .cons ⟨e, t, owner, target, f, g, hjoins, rfl⟩ (ih hrest)
    | hasMany =>
      rw [List.filter_cons_of_pos (by simp [Relation.isHolder, hkind])]
      simp only [relationPart, inverseOperations, hkind]
      exact .cons ⟨e, t, owner, target, f, g, hjoins, rfl⟩ (ih hrest)

/-- The comments that a model calls for are those of the relations that read a key backwards, in their order. -/
theorem forall₂_wanted (h : m.Sound) :
    List.Forall₂ (ReadComment options m) (m.relations.filter fun r => !r.isHolder)
      ((wanted options m).filter commentsOnKey) := by
  have hearly : (undeferred options m).filter commentsOnKey = [] := by
    refine List.filter_eq_nil_iff.mpr fun op hop hcomments => phase_of_mem_undeferred hop ?_
    cases op with
    | commentOnConstraint => rfl
    | _ => cases hcomments
  rw [wanted_eq, List.filter_append, hearly, List.nil_append]
  exact forall₂_late h fun r hr => hr

/-- Only one operation that a model calls for gives a constraint a certain comment. -/
theorem Calls.eq_comment {op : Operation} (h : Calls options m op) {table name comment : String}
    (hf : Fact.constraintComment table name comment ∈ op.effects) :
    op = .commentOnConstraint options.schema table name comment := by
  cases h with
  | keyComment =>
    simp only [Operation.effects, List.mem_pair, reduceCtorEq, Fact.constraintComment.injEq, false_or] at hf
    obtain ⟨rfl, rfl, rfl⟩ := hf
    rfl
  | table => simp [Operation.effects, Catalog.Operation.mem_keyEffects] at hf
  | enumType => simp [Operation.effects, Operation.wants] at hf
  | column => simp [Operation.effects] at hf
  | _ => cases List.mem_singleton.mp hf

/-- No comment on a key stands twice in the operations that a model calls for. -/
theorem nodup_comments (h : m.Sound) (hapart : m.HashesApart) :
    ((wanted options m).filter commentsOnKey).Nodup := by
  have hreaders : (m.relations.filter fun r => !r.isHolder).Nodup := by
    refine (h.apart.filter _).imp_of_mem ?_
    rintro r _ hr - hread rfl
    have hkind : r.kind ≠ .belongsTo := by simpa [Relation.isHolder] using (List.mem_filter.mp hr).2
    exact hread hkind hkind rfl
  refine nodup_of_forall₂ (forall₂_wanted h) hreaders ?_
  rintro r hr r' hr' op ⟨e, t, owner, target, f, g, hjoins, rfl⟩
    ⟨e', t', owner', target', f', g', hjoins', hop⟩
  obtain ⟨hr, hreads⟩ := List.mem_filter.mp hr
  obtain ⟨hr', hreads'⟩ := List.mem_filter.mp hr'
  obtain ⟨-, htable, hname, -⟩ := Operation.commentOnConstraint.inj hop
  exact eq_of_constraint h hapart hr hr' (by simpa [Relation.isHolder] using hreads)
    (by simpa [Relation.isHolder] using hreads') hjoins hjoins' htable hname

/-- A plan for a schema that does not exist comments on keys as the model calls for. -/
theorem filter_comments (h : m.Sound) (hapart : m.HashesApart)
    (hplan : plan options m (.empty options.schema) = .ok ops) :
    ops.filter commentsOnKey = (wanted options m).filter commentsOnKey := by
  obtain ⟨-, hsettle⟩ := (plan_ok_iff h).mp hplan
  refine filter_taken hsettle (nodup_comments h hapart) fun op hop hcomments => ?_
  cases op with
  | commentOnConstraint schema table name comment =>
    obtain ⟨op, hfirst⟩ := (exists_isFirst (P := fun op : Operation =>
      Fact.constraintComment table name comment ∈ op.effects)).mpr
        ⟨_, hop, List.mem_cons_of_mem _ (List.mem_singleton_self _)⟩
    have hcalls : ∀ {op}, op ∈ wanted options m → Fact.constraintComment table name comment ∈ op.effects →
        op = .commentOnConstraint options.schema table name comment :=
      fun hop hf => ((mem_wanted h).mp hop).eq_comment hf
    have hsame := (hcalls hop (List.mem_cons_of_mem _ (List.mem_singleton_self _))).trans
      (hcalls hfirst.mem hfirst.holds).symm
    rw [hsame]
    refine mem_taken_of_isFirst hsettle ?_ hfirst (by rw [← hsame]; rfl)
    simp [Snapshot.Shows, Snapshot.constraintComment?, Snapshot.empty]
  | _ => cases hcomments

/-! ## Derived fields -/

/-- The derived fields of a document call for the relations that read a key backwards, in their order. -/
theorem forall₂_derivedFields (d : Document) (m : Model) :
    List.Forall₂ (fun p r => p.1.calledRelation? m p.2 = some r) d.derivedFields
      ((d.calledRelations m).filter fun r => !r.isHolder) := by
  rw [Document.derivedFields, Document.calledRelations, List.filter_flatMap]
  refine List.rel_flatMap (List.forall₂_same.mpr fun _ _ => rfl) ?_
  rintro t _ rfl
  dsimp only
  rw [List.filter_filterMap, List.forall₂_map_left_iff]
  refine forall₂_filter_filterMap (List.forall₂_same.mpr fun _ _ => rfl) ?_
  rintro f _ rfl
  cases hu : f.derivedFrom? with
  | none =>
    refine .inl ⟨by simp [FieldDeclaration.isStored, hu], ?_⟩
    rw [TypeDeclaration.calledRelation?, hu]
    dsimp only
    split <;> rfl
  | some u =>
    have hreads : inverseKind m.entities f.type.name (backField u) ≠ .belongsTo :=
      inverseKind_ne_belongsTo _ _ _
    refine .inr ⟨by simp [FieldDeclaration.isStored, hu], ?_⟩
    rw [TypeDeclaration.calledRelation?, hu]
    exact ⟨_, by simp [Relation.isHolder, hreads], rfl⟩

/-- An operation comments on the key of the reference field that a derived field points at.  The key is one of the
plan, and its tag tells a relation to one from a relation to many and has the name of the derived field. -/
def CommentOf (options : Options) (m : Model) (ops : List Operation) (t : TypeDeclaration)
    (f : FieldDeclaration) (op : Operation) : Prop :=
  ∃ u, f.derivedFrom? = some u ∧ ∃ e ∈ m.entities, e.name = f.type.name ∧
    ∃ g, e.field? (backField u) = some g ∧ g.type = .reference t.name ∧
      (∃ key ∈ ops, KeyOf options m ops e g key) ∧
      ∃ r ∈ m.relations, r.source = t.name ∧ r.target = e.name ∧ r.fieldName = f.name ∧
        ∃ tag, (r.kind = .hasOne ∧ tag = "singleForeignFieldName" ∨
            r.kind = .hasMany ∧ tag = "foreignFieldName") ∧
          op = .commentOnConstraint options.schema e.tableName
            (Naming.foreignKeyConstraint e.tableName g.columnName) (Naming.smartTags [(tag, f.name)])

/-- A relation that reads a key backwards is called for by a derived field. -/
theorem exists_derivedFrom {t : TypeDeclaration} {f : FieldDeclaration} {r : Relation}
    (hcalled : t.calledRelation? m f = some r) (hkind : r.kind ≠ .belongsTo) :
    ∃ u, f.derivedFrom? = some u ∧ r.source = t.name ∧ r.target = f.type.name ∧
      r.fieldName = f.name ∧ r.foreignKey = EntityField.keyName (backField u) := by
  unfold TypeDeclaration.calledRelation? at hcalled
  split at hcalled
  · next u hu =>
    obtain rfl := Option.some.inj hcalled
    exact ⟨u, hu, rfl, rfl, rfl, rfl⟩
  · split at hcalled
    · obtain rfl := Option.some.inj hcalled
      exact absurd rfl hkind
    · cases hcalled

/-- The tag of a relation that reads a key backwards tells whether it is to one or to many. -/
theorem exists_tag {r : Relation} (hkind : r.kind ≠ .belongsTo) :
    ∃ tag, (r.kind = .hasOne ∧ tag = "singleForeignFieldName" ∨
        r.kind = .hasMany ∧ tag = "foreignFieldName") ∧
      relationTags r = Naming.smartTags [(tag, r.fieldName)] := by
  cases hcases : r.kind with
  | belongsTo => exact absurd hcases hkind
  | hasOne => exact ⟨_, .inl ⟨rfl, rfl⟩, by rw [relationTags, if_pos hcases]⟩
  | hasMany => exact ⟨_, .inr ⟨rfl, rfl⟩, by simp [relationTags, hcases]⟩

/-- The comment of a relation that a derived field calls for is that of the derived field. -/
theorem ReadComment.commentOf (h : m.Sound) (hapart : m.HashesApart)
    (hplan : plan options m (.empty options.schema) = .ok ops) {t : TypeDeclaration} {f : FieldDeclaration}
    {r : Relation} (hr : r ∈ m.relations) (hkind : r.kind ≠ .belongsTo)
    (hcalled : t.calledRelation? m f = some r) {op : Operation} (hop : ReadComment options m r op) :
    CommentOf options m ops t f op := by
  obtain ⟨e, target, owner, compiled, g, k, hjoins, rfl⟩ := hop
  obtain ⟨u, hu, hsource, htarget, hname, hkey⟩ := exists_derivedFrom hcalled hkind
  obtain ⟨tag, htag, htags⟩ := exists_tag hkind
  have howner : e.name = r.target := by simpa [Relation.keyOwner, hkind] using hjoins.ownerName
  have htype : g.type = .reference t.name := by
    simpa [Relation.keyTarget, hkind, hsource] using hjoins.reference
  have hback : g.name = backField u := EntityField.keyName_injective (hjoins.foreignKey.symm.trans hkey)
  refine ⟨u, hu, e, hjoins.ownerMem, howner.trans htarget, g, hback ▸ hjoins.field, htype,
    ⟨_, key_mem_plan h hapart hplan hr hjoins, hjoins.keyOf h hplan⟩, r, hr, hsource, howner.symm, hname,
    tag, htag, ?_⟩
  rw [(Entity.compile_ok hjoins.ownerCompiled).2.1, htags, hjoins.columnName, hname]

/-- The comments of a plan for a schema that does not exist are those of the derived fields, in their order. -/
theorem forall₂_comments {d : Document} (hextract : extract d = .ok m) (hapart : m.HashesApart)
    (hplan : plan options m (.empty options.schema) = .ok ops) :
    List.Forall₂ (fun p op => CommentOf options m ops p.1 p.2 op) d.derivedFields
      (ops.filter commentsOnKey) := by
  have hsound := extract_sound hextract
  obtain ⟨ds, hyields⟩ := extract_ok hextract
  have hcalled := forall₂_derivedFields d m
  rw [← hyields.filter_readers] at hcalled
  rw [filter_comments hsound hapart hplan]
  refine (forall₂_comp hcalled (forall₂_wanted hsound)).imp ?_
  rintro p op ⟨r, hr, hcalled, hop⟩
  obtain ⟨hr, hreads⟩ := List.mem_filter.mp hr
  exact hop.commentOf hsound hapart hplan hr (by simpa [Relation.isHolder] using hreads) hcalled

/-- Within the index limit there is a plan for a schema that does not exist, and its foreign keys mirror the
reference fields that the lookup of their names finds.  So they mirror all reference fields exactly when none of
them stands behind another field of its name.  The comments on keys are those of the derived fields, one by
one. -/
theorem plan_foreignKeys {d : Document} (hextract : extract d = .ok m) (hapart : m.HashesApart)
    (hlimit : ∀ e ∈ m.entities, ¬ OverLimit options e) :
    ∃ ops, plan options m (.empty options.schema) = .ok ops ∧
      (Mirror options m ops m.references ↔ ∀ p ∈ m.references, p.1.finds p.2 = true) ∧
      Mirror options m ops (m.references.filter fun p => p.1.finds p.2) ∧
      List.Forall₂ (fun p op => CommentOf options m ops p.1 p.2 op) d.derivedFields
        (ops.filter commentsOnKey) := by
  have hsound := extract_sound hextract
  obtain ⟨ops, hplan⟩ := exists_plan_empty hsound hlimit (nodup_enumTypes hsound hapart _)
  exact ⟨ops, hplan, mirror_iff hextract hapart hplan, mirror_found hextract hapart hplan,
    forall₂_comments hextract hapart hplan⟩

/-- Members of clubs with their mentors, and clubs with their founders: a reference to the entity itself, and two
that refer to each other. -/
def clubDocument : Document where
  types :=
    [ { kind := .object, name := "Member", directives := [{ name := "entity" }]
        fields :=
          [ { name := "id", type := { name := "ID", nullable := false } },
            { name := "mentor", type := { name := "Member" } },
            { name := "club", type := { name := "Club", nullable := false } },
            { name := "pupils", type := { name := "Member", isArray := true }
              directives := [{ name := "derivedFrom"
                               arguments := [(.text "field", .text "mentor")] }] },
            { name := "founded", type := { name := "Club" }
              directives := [{ name := "derivedFrom"
                               arguments := [(.text "field", .text "founder")] }] } ] },
      { kind := .object, name := "Club", directives := [{ name := "entity" }]
        fields :=
          [ { name := "id", type := { name := "ID", nullable := false } },
            { name := "members", type := { name := "Member", isArray := true }
              directives := [{ name := "derivedFrom"
                               arguments := [(.text "field", .text "club")] }] },
            { name := "founder", type := { name := "Member" }
              directives := [{ name := "index", arguments := [(.text "unique", .bool true)] }] } ] } ]

/-- The model of clubs and their members. -/
def clubModel : Model := (extract clubDocument).toOption.getD {}

/-- The plan for clubs has the keys of their three reference fields, and a comment for each derived field. -/
theorem plan_foreignKeys_clubModel :
    clubModel.references.length = 3 ∧ clubDocument.derivedFields.length = 3 ∧
    ∃ ops, plan {} clubModel (.empty "public") = .ok ops ∧ Mirror {} clubModel ops clubModel.references ∧
      List.Forall₂ (fun p op => CommentOf {} clubModel ops p.1 p.2 op) clubDocument.derivedFields
        (ops.filter commentsOnKey) := by
  have hextract : extract clubDocument = .ok clubModel := eq_ok_of_toOption (by decide +kernel)
  have hapart : clubModel.HashesApart := ⟨by decide +kernel, by decide +kernel⟩
  have hlimit : ∀ e ∈ clubModel.entities, ¬ OverLimit {} e := by
    unfold OverLimit
    decide +kernel
  obtain ⟨ops, hplan, hmirror, -, hcomments⟩ := plan_foreignKeys hextract hapart hlimit
  exact ⟨by decide +kernel, by decide +kernel, ops, hplan, hmirror.mpr (by decide +kernel), hcomments⟩

/-- A plan does not mirror a reference field behind another field of its name. -/
theorem reference_not_mirrored :
    extract sharedNameDocument = .ok sharedNameModel ∧ sharedNameModel.HashesApart ∧
      sharedNameModel.references.length = 1 ∧
      ∃ ops, plan { timestamps := false } sharedNameModel (.empty "public") = .ok ops ∧
        ops.filter addsKey = [] ∧
        ¬ Mirror { timestamps := false } sharedNameModel ops sharedNameModel.references := by
  have hextract : extract sharedNameDocument = .ok sharedNameModel := eq_ok_of_toOption (by decide +kernel)
  have hapart : sharedNameModel.HashesApart := ⟨by decide +kernel, by decide +kernel⟩
  have hplan : plan { timestamps := false } sharedNameModel (.empty "public") =
      .ok ((plan { timestamps := false } sharedNameModel (.empty "public")).toOption.getD []) :=
    eq_ok_of_toOption (by decide +kernel)
  refine ⟨hextract, hapart, by decide +kernel, _, hplan, by decide +kernel, fun hmirror => ?_⟩
  exact absurd ((mirror_iff hextract hapart hplan).mp hmirror) (by decide +kernel)

end Plan

end SchemaReconcile
