import Mathlib.Data.List.Perm.Basic
import SchemaReconcile.Proofs.Compile.Relations

/-!
# Documents with their declarations in another order

Every check of an extraction is about declarations one by one, or holds names apart, so it passes in any order
(`exists_classified_iff`, `checkStorageNames_eq_ok_iff`, `sources_nodup_iff`).  What a declaration yields
depends on the others only through lookups by name, and names are apart: entities and shapes are built alike
from reordered declarations (`Declarations.Reordered.buildEntity_eq`), and so are the relations of an entity.
So a document has a model in one order when it has one in another (`Declarations.Yields.exists_reordered`), and
the two models have the same parts, each behind its declaration (`SameParts`).
-/

namespace SchemaReconcile

/-- Two models have the same parts, in any order.  Shapes are left out: no plan depends on them. -/
structure Model.Reordered (m m' : Model) : Prop where
  enums : m.enums.Perm m'.enums
  entities : m.entities.Perm m'.entities
  relations : m.relations.Perm m'.relations

/-- Two lists are what the declarations of a role yield in two orders: each yields one part, named after it, and
the same in both. -/
def SameYield {α : Type} (role : Role) (name : α → String) (types types' : List TypeDeclaration)
    (xs ys : List α) : Prop :=
  ∃ part : TypeDeclaration → α, (∀ t ∈ types, t.role? = some role → name (part t) = t.name) ∧
    xs = (types.filter fun t => t.role? = some role).map part ∧
    ys = (types'.filter fun t => t.role? = some role).map part

/-- Two models are those of the same declarations in two orders: entities, enumerations and shapes follow their
declarations, and the relations of each entity are the same. -/
structure SameParts (types types' : List TypeDeclaration) (m m' : Model) : Prop where
  entities : SameYield .entity Entity.name types types' m.entities m'.entities
  enums : SameYield .enumeration Enumeration.name types types' m.enums m'.enums
  shapes : SameYield .shape JsonShape.name types types' m.jsonShapes m'.jsonShapes
  relations : ∀ name, m.relationsFrom name = m'.relationsFrom name

namespace SameYield

variable {α : Type} {role : Role} {name : α → String} {types types' : List TypeDeclaration} {xs ys : List α}

/-- One step that keeps the names yields both lists. -/
theorem of_forall₂ [Inhabited α] {step : TypeDeclaration → Except ExtractFault α}
    (hname : ∀ t x, step t = .ok x → name x = t.name)
    (h : List.Forall₂ (fun t x => step t = .ok x) (types.filter fun t => t.role? = some role) xs)
    (h' : List.Forall₂ (fun t x => step t = .ok x) (types'.filter fun t => t.role? = some role) ys) :
    SameYield role name types types' xs ys := by
  have hpart : ∀ ts zs, List.Forall₂ (fun t x => step t = .ok x) ts zs →
      zs = ts.map fun t => (step t).toOption.getD default := fun ts zs hzs =>
    (List.map_id zs).symm.trans (map_eq_map_of_forall₂ hzs fun t x hx => by rw [hx]; rfl)
  refine ⟨_, fun t ht hrole => ?_, hpart _ _ h, hpart _ _ h'⟩
  obtain ⟨x, -, hx⟩ := exists_right_of_forall₂ h (List.mem_filter.mpr ⟨ht, by simpa using hrole⟩)
  rw [hx]
  exact hname t x hx

/-- The two lists hold the same, in another order if the declarations are reordered. -/
theorem perm (h : SameYield role name types types' xs ys) (hperm : types.Perm types') : xs.Perm ys := by
  obtain ⟨part, -, rfl, rfl⟩ := h
  exact (hperm.filter _).map part

end SameYield

/-- Where entities have different names, a field yields the same relation in any order of them. -/
theorem relationOf?_eq_of_perm {entities entities' : List Entity} (h : entities.Perm entities')
    (hnodup : (entities.map (·.name)).Nodup) : relationOf? entities = relationOf? entities' := by
  have hkind : inverseKind entities = inverseKind entities' := by
    funext target back
    rw [inverseKind, inverseKind, find?_eq_of_perm Entity.name h hnodup]
  funext e f
  simp only [relationOf?, inverseOf, hkind]

namespace Declarations

variable {ds ds' : Declarations} {d : Document} {m m' : Model} {types' : List TypeDeclaration}

/-! ## Declarations -/

/-- The same declarations of each role, in any order, over the same scalars. -/
structure Reordered (ds ds' : Declarations) : Prop where
  scalars : ds.document.scalars = ds'.document.scalars
  roles : ∀ role, (ds.ofRole role).Perm (ds'.ofRole role)
  sound : ds.Sound

/-- A document has declarations in one order when it has them in another. -/
theorem exists_ofDocument (h : ofDocument d = .ok ds) (hperm : d.types.Perm types') :
    ∃ ds', ofDocument { d with types := types' } = .ok ds' := by
  obtain ⟨-, hclassified, hchecked⟩ := ofDocument_eq_ok_iff.mp h
  obtain ⟨classified, hclassified'⟩ : ∃ classified, classify d.withBase.scalars types' = .ok classified := by
    obtain ⟨hnodup, hall⟩ := exists_classified_iff.mp ⟨_, hclassified⟩
    refine exists_classified_iff.mpr ⟨?_, fun t ht => hall t (hperm.mem_iff.mpr ht)⟩
    exact ((hperm.filter _).map _).nodup_iff.mp hnodup
  refine ⟨⟨_, classified⟩, ofDocument_eq_ok_iff.mpr ⟨rfl, hclassified', fun t ht => ?_⟩⟩
  exact hchecked t (hperm.mem_iff.mpr ht)

/-- The declarations of a document in two orders. -/
theorem reordered_of_perm (h : ofDocument d = .ok ds)
    (h' : ofDocument { d with types := types' } = .ok ds') (hperm : d.types.Perm types') :
    ds.Reordered ds' := by
  refine ⟨?_, fun role => ?_, (ofDocument_eq_ok h).1⟩
  · rw [(ofDocument_eq_ok h).2.1, (ofDocument_eq_ok h').2.1]
    rfl
  · rw [ofRole_of_ofDocument h, ofRole_of_ofDocument h']
    exact hperm.filter _

namespace Reordered

/-- The same names have the same roles. -/
theorem has_eq (h : ds.Reordered ds') : ds.has = ds'.has := by
  funext role name
  rw [Bool.eq_iff_iff, has_iff, has_iff]
  simp only [(h.roles role).mem_iff]

/-- The same entity declarations are found. -/
theorem entity?_eq (h : ds.Reordered ds') : ds.entity? = ds'.entity? := by
  funext name
  exact find?_eq_of_perm TypeDeclaration.name (h.roles .entity) (h.sound.ofRole_nodup .entity) name

/-- The same names are scalars. -/
theorem scalarKind?_eq (h : ds.Reordered ds') : ds.scalarKind? = ds'.scalarKind? := by
  funext type
  rw [scalarKind?, scalarKind?, h.scalars]

/-- Shapes are built alike. -/
theorem buildShape_eq (h : ds.Reordered ds') : ds.buildShape = ds'.buildShape := by
  have hmember : ds.buildMember = ds'.buildMember := by
    funext owner f
    rw [buildMember, buildMember, h.scalarKind?_eq, h.has_eq]
  funext t
  rw [buildShape, buildShape, hmember]

/-- Entities are built alike. -/
theorem buildEntity_eq (h : ds.Reordered ds') : ds.buildEntity = ds'.buildEntity := by
  have hfield : ds.buildField = ds'.buildField := by
    funext owner f
    rw [buildField, buildField, h.scalarKind?_eq, h.has_eq]
  have hderived : ds.checkDerived = ds'.checkDerived := by
    funext owner f u
    rw [checkDerived, checkDerived, h.entity?_eq]
  have hpart : ds.fieldPart = ds'.fieldPart := by
    funext owner f
    rw [fieldPart, fieldPart, hfield, hderived]
  funext t
  rw [buildEntity, buildEntity, hpart]

/-- The declared fields of entities yield the same relations, in another order. -/
theorem yielded_perm (h : ds.Reordered ds') {entities entities' : List Entity}
    (hperm : entities.Perm entities') (hnodup : (entities.map (·.name)).Nodup) :
    ((declaredFields ds entities).filterMap fun p => relationOf? entities p.1 p.2).Perm
      ((declaredFields ds' entities').filterMap fun p => relationOf? entities' p.1 p.2) := by
  rw [declaredFields, declaredFields, h.entity?_eq, relationOf?_eq_of_perm hperm hnodup]
  exact (hperm.flatMap_right _).filterMap _

end Reordered

/-! ## Models -/

namespace Yields

/-- A document has a model in one order when it has one in another. -/
theorem exists_reordered (h : ds.Yields d m) (hperm : d.types.Perm types') :
    ∃ ds' m', Yields ds' { d with types := types' } m' := by
  obtain ⟨ds', hds'⟩ := exists_ofDocument h.document hperm
  have hr := reordered_of_perm h.document hds' hperm
  obtain ⟨enums, henums, -⟩ := List.perm_comp_forall₂ (hr.roles .enumeration).symm h.enums
  obtain ⟨shapes, hshapes, -⟩ := List.perm_comp_forall₂ (hr.roles .shape).symm h.shapes
  obtain ⟨entities, hentities, hsame⟩ := List.perm_comp_forall₂ (hr.roles .entity).symm h.entities
  rw [hr.buildShape_eq] at hshapes
  rw [hr.buildEntity_eq] at hentities
  obtain ⟨relations, hrelations⟩ : ∃ relations, relations =
      (declaredFields ds' entities).filterMap fun p => relationOf? entities p.1 p.2 := ⟨_, rfl⟩
  refine ⟨ds', ⟨entities, enums, shapes, relations⟩, hds', henums, hshapes, hentities, ?_, hrelations, ?_⟩
  · obtain ⟨htables, hall⟩ := checkStorageNames_eq_ok_iff.mp h.storage
    refine checkStorageNames_eq_ok_iff.mpr ⟨?_, fun e he => hall e (hsame.mem_iff.mp he)⟩
    exact (hsame.map _).nodup_iff.mpr htables
  · have hyielded : m.relations.Perm relations := by
      rw [h.relations, hrelations]
      exact hr.yielded_perm hsame.symm h.nodup_entity_names
    exact (hyielded.pairwise_iff fun hapart => symm hapart).mp h.apart

variable (h : ds.Yields d m) (h' : ds'.Yields { d with types := types' } m')
  (hperm : d.types.Perm types')

include h h' hperm

/-- Two orders yield the same parts, each behind its declaration. -/
theorem sameParts : SameParts d.types types' m m' := by
  have hr := reordered_of_perm h.document h'.document hperm
  have hentities : SameYield .entity Entity.name d.types types' m.entities m'.entities :=
    .of_forall₂ (fun _ _ => name_of_buildEntity) (h.ofRole_eq .entity ▸ h.entities)
      (hr.buildEntity_eq ▸ h'.ofRole_eq .entity ▸ h'.entities)
  refine ⟨hentities, ?_, ?_, fun name => ?_⟩
  · exact .of_forall₂ (fun _ _ => name_of_buildEnum) (h.ofRole_eq .enumeration ▸ h.enums)
      (h'.ofRole_eq .enumeration ▸ h'.enums)
  · exact .of_forall₂ (fun _ _ => name_of_buildShape) (h.ofRole_eq .shape ▸ h.shapes)
      (hr.buildShape_eq ▸ h'.ofRole_eq .shape ▸ h'.shapes)
  · have hfound : foundFor ds m = foundFor ds' m' := by
      funext e
      rw [foundFor, foundFor, hr.entity?_eq,
        relationOf?_eq_of_perm (hentities.perm hperm) h.nodup_entity_names]
    rw [Model.relationsFrom, Model.relationsFrom, h.relations_eq_flatMap, h'.relations_eq_flatMap, ← hfound]
    exact filter_flatMap_eq_of_perm Entity.name (hentities.perm hperm) h.nodup_entity_names
      (fun _ _ _ hrelation => source_of_mem_foundFor hrelation) name

/-- Two orders yield the same model, up to the order of its parts. -/
theorem reordered : m.Reordered m' := by
  have hparts := h.sameParts h' hperm
  refine ⟨hparts.enums.perm hperm, hparts.entities.perm hperm, ?_⟩
  rw [h.relations, h'.relations]
  exact (reordered_of_perm h.document h'.document hperm).yielded_perm (hparts.entities.perm hperm)
    h.nodup_entity_names

end Yields

end Declarations

end SchemaReconcile
