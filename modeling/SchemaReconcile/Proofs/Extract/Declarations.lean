import SchemaReconcile.Extract.Declarations
import SchemaReconcile.Proofs.Results

/-!
# Sound declarations

Classifying keeps the names apart: no two declarations share a name, whatever their roles, and none has the
name of a scalar (`Declarations.Sound`).  So a name decides a declaration together with its role, and the
lookups of an entity by its name find exactly the declarations of entities.
-/

namespace SchemaReconcile

/-! ## Classifying -/

/-- The name of a classified declaration. -/
def classifiedName (p : Role × TypeDeclaration) : String := p.2.name

/-- The role of a declaration: enumerations say it themselves, objects by their directives. -/
def HasRole (d : TypeDeclaration) (role : Role) : Prop :=
  d.kind = .enumeration ∧ role = .enumeration ∨ d.kind = .object ∧ objectRole d = .ok role

/-- A declaration has one role at most. -/
theorem HasRole.unique {d : TypeDeclaration} {r r' : Role} (h : HasRole d r) (h' : HasRole d r') :
    r = r' := by
  rcases h with ⟨hk, hr⟩ | ⟨hk, hr⟩ <;> rcases h' with ⟨hk', hr'⟩ | ⟨hk', hr'⟩
  · rw [hr, hr']
  · rw [hk] at hk'
    cases hk'
  · rw [hk] at hk'
    cases hk'
  · exact Except.ok.inj (hr.symm.trans hr')

/-- The role of a declaration that is no scalar, as it is classified. -/
theorem hasRole_iff {d : TypeDeclaration} {role : Role} (h : d.kind ≠ .scalar) :
    HasRole d role ↔
      (if d.kind = .enumeration then pure Role.enumeration else objectRole d) = .ok role := by
  cases hkind : d.kind with
  | scalar => exact absurd hkind h
  | enumeration => simp [HasRole, hkind, pure, Except.pure, eq_comm]
  | object => simp [HasRole, hkind]

/-- The steps of classifying a declaration that is no scalar. -/
theorem classify_cons_of_ne {taken : List String} {d : TypeDeclaration} (rest : List TypeDeclaration)
    (h : d.kind ≠ .scalar) :
    classify taken (d :: rest) =
      checkNames d >>= fun _ =>
        if taken.contains d.name then throw (.repeatedType d.name)
        else (if d.kind = .enumeration then pure Role.enumeration else objectRole d) >>= fun role =>
          classify (d.name :: taken) rest >>= fun later => pure ((role, d) :: later) := by
  rw [classify]
  cases hkind : d.kind with
  | scalar => exact absurd hkind h
  | enumeration => rfl
  | object => rfl

/-- Classifying leaves out a scalar, and gives any other declaration its role if its names are safe and its
own is not taken. -/
theorem classify_cons_eq_ok_iff {taken : List String} {d : TypeDeclaration} {rest : List TypeDeclaration}
    {classified : List (Role × TypeDeclaration)} :
    classify taken (d :: rest) = .ok classified ↔
      (d.kind = .scalar ∧ classify taken rest = .ok classified) ∨
      ∃ role later, HasRole d role ∧ checkNames d = .ok () ∧ d.name ∉ taken ∧
        classify (d.name :: taken) rest = .ok later ∧ classified = (role, d) :: later := by
  by_cases hkind : d.kind = .scalar
  · simp [classify, hkind, HasRole]
  · simp only [hkind, hasRole_iff hkind, false_and, false_or]
    rw [classify_cons_of_ne rest hkind, bind_eq_ok]
    constructor
    · rintro ⟨⟨⟩, hnames, h⟩
      split at h
      · cases h
      · next hfresh =>
        obtain ⟨role, hrole, h⟩ := bind_eq_ok.mp h
        obtain ⟨later, hlater, h⟩ := bind_eq_ok.mp h
        exact ⟨role, later, hrole, hnames, by simpa using hfresh, hlater, (Except.ok.inj h).symm⟩
    · rintro ⟨role, later, hrole, hnames, hfresh, hlater, rfl⟩
      refine ⟨(), hnames, ?_⟩
      rw [if_neg (by simpa using hfresh), hrole]
      exact bind_eq_ok.mpr ⟨role, rfl, bind_eq_ok.mpr ⟨later, hlater, rfl⟩⟩

/-- Declarations can be classified when those that are no scalars have safe names, a role each, and names of
their own that differ and are not taken: their order plays no part. -/
theorem exists_classified_iff {taken : List String} {types : List TypeDeclaration} :
    (∃ classified, classify taken types = .ok classified) ↔
      ((types.filter fun t => t.kind ≠ .scalar).map (·.name)).Nodup ∧
        ∀ t ∈ types, t.kind ≠ .scalar →
          checkNames t = .ok () ∧ t.name ∉ taken ∧ ∃ role, HasRole t role := by
  induction types generalizing taken with
  | nil => simp [classify]
  | cons d rest ih =>
    by_cases hkind : d.kind = .scalar
    · have hrole : ∀ role, ¬ HasRole d role := by simp [HasRole, hkind]
      simp [classify_cons_eq_ok_iff, hkind, hrole, ih]
    · have hsplit : (∃ classified, classify taken (d :: rest) = .ok classified) ↔
          (checkNames d = .ok () ∧ d.name ∉ taken ∧ ∃ role, HasRole d role) ∧
            ∃ later, classify (d.name :: taken) rest = .ok later := by
        simp only [classify_cons_eq_ok_iff, hkind, false_and, false_or]
        constructor
        · rintro ⟨_, role, later, hrole, hnames, hfresh, hlater, -⟩
          exact ⟨⟨hnames, hfresh, role, hrole⟩, later, hlater⟩
        · rintro ⟨⟨hnames, hfresh, role, hrole⟩, later, hlater⟩
          exact ⟨_, role, later, hrole, hnames, hfresh, hlater, rfl⟩
      rw [hsplit, ih, List.filter_cons_of_pos (by simpa using hkind), List.map_cons, List.nodup_cons,
        List.forall_mem_cons]
      -- the name in front is taken for the rest, which keeps it apart from theirs
      grind

/-- Classified declarations have different names, none of which was taken. -/
theorem classify_names {taken : List String} {types : List TypeDeclaration}
    {classified : List (Role × TypeDeclaration)} (h : classify taken types = .ok classified) :
    (classified.map classifiedName).Nodup ∧ ∀ p ∈ classified, classifiedName p ∉ taken := by
  induction types generalizing taken classified with
  | nil =>
    obtain rfl := Except.ok.inj h
    simp
  | cons d rest ih =>
    rcases classify_cons_eq_ok_iff.mp h with ⟨-, h⟩ | ⟨role, later, -, -, hfresh, hlater, rfl⟩
    · exact ih h
    · obtain ⟨hnodup, huntaken⟩ := ih hlater
      have hhead : ∀ p ∈ later, classifiedName (role, d) ≠ classifiedName p := fun p hp heq =>
        huntaken p hp (heq ▸ List.mem_cons_self)
      refine ⟨nodup_map_cons hhead hnodup, ?_⟩
      intro p hp
      rcases List.mem_cons.mp hp with rfl | hp
      · exact hfresh
      · exact fun hmem => huntaken p hp (List.mem_cons_of_mem _ hmem)

/-- The classified declarations are those that have a role. -/
theorem mem_classified {taken : List String} {types : List TypeDeclaration}
    {classified : List (Role × TypeDeclaration)} (h : classify taken types = .ok classified)
    {role : Role} {d : TypeDeclaration} :
    (role, d) ∈ classified ↔ d ∈ types ∧ HasRole d role := by
  induction types generalizing taken classified with
  | nil =>
    obtain rfl := Except.ok.inj h
    simp
  | cons a rest ih =>
    rcases classify_cons_eq_ok_iff.mp h with ⟨hkind, h⟩ | ⟨role', later, hrole', -, -, hlater, rfl⟩
    · rw [ih h, List.mem_cons]
      constructor
      · exact fun ⟨hd, hrole⟩ => ⟨.inr hd, hrole⟩
      · rintro ⟨rfl | hd, hrole⟩
        · simp [HasRole, hkind] at hrole
        · exact ⟨hd, hrole⟩
    · rw [List.mem_cons, Prod.mk.injEq, ih hlater, List.mem_cons]
      constructor
      · rintro (⟨rfl, rfl⟩ | ⟨hd, hrole⟩)
        · exact ⟨.inl rfl, hrole'⟩
        · exact ⟨.inr hd, hrole⟩
      · rintro ⟨rfl | hd, hrole⟩
        · exact .inl ⟨hrole.unique hrole', rfl⟩
        · exact .inr ⟨hd, hrole⟩

/-- The role of a declaration, none for a scalar and for an object that does not say its role. -/
def TypeDeclaration.role? (d : TypeDeclaration) : Option Role :=
  match d.kind with
  | .scalar => none
  | .enumeration => some .enumeration
  | .object => (objectRole d).toOption

/-- The role that a declaration has. -/
theorem HasRole.role?_eq {d : TypeDeclaration} {role : Role} (h : HasRole d role) :
    d.role? = some role := by
  rcases h with ⟨hkind, rfl⟩ | ⟨hkind, hrole⟩
  · rw [TypeDeclaration.role?, hkind]
  · rw [TypeDeclaration.role?, hkind]
    dsimp only
    rw [hrole]
    rfl

/-- The classified declarations of a role are the declarations that have it, in their order. -/
theorem classified_of_role {taken : List String} {types : List TypeDeclaration}
    {classified : List (Role × TypeDeclaration)} (h : classify taken types = .ok classified)
    (role : Role) :
    (classified.filterMap fun (r, t) => if r = role then some t else none) =
      types.filter fun t => t.role? = some role := by
  induction types generalizing taken classified with
  | nil =>
    obtain rfl := Except.ok.inj h
    rfl
  | cons d rest ih =>
    rcases classify_cons_eq_ok_iff.mp h with ⟨hkind, h⟩ | ⟨role', later, hrole, -, -, hlater, rfl⟩
    · rw [List.filter_cons_of_neg (by simp [TypeDeclaration.role?, hkind])]
      exact ih h
    · by_cases hsame : role' = role
      · rw [List.filterMap_cons_some (by simp [hsame]; rfl),
          List.filter_cons_of_pos (by simp [hrole.role?_eq, hsame]), ih hlater]
      · rw [List.filterMap_cons_none (by simp [hsame]),
          List.filter_cons_of_neg (by simp [hrole.role?_eq, hsame]), ih hlater]

namespace Declarations

/-! ## Sound declarations -/

/-- Names are apart: those of the declarations among themselves, and from the scalars. -/
structure Sound (ds : Declarations) : Prop where
  apart : (ds.classified.map classifiedName).Nodup
  unscalared : ∀ p ∈ ds.classified, classifiedName p ∉ ds.document.scalars

/-- A document has declarations when they can be classified and the directives of each of them pass. -/
theorem ofDocument_eq_ok_iff {d : Document} {ds : Declarations} :
    ofDocument d = .ok ds ↔ ds.document = d.withBase ∧
      classify d.withBase.scalars d.types = .ok ds.classified ∧
      ∀ t ∈ d.types, checkDirectives d.withBase t = .ok () := by
  rw [ofDocument, bind_eq_ok]
  simp only [bind_eq_ok]
  constructor
  · rintro ⟨classified, hclassified, ⟨⟩, hchecked, h⟩
    obtain rfl := Except.ok.inj h
    exact ⟨rfl, hclassified, forIn_check_eq_ok_iff.mp hchecked⟩
  · rintro ⟨hdoc, hclassified, hchecked⟩
    refine ⟨ds.classified, hclassified, (), forIn_check_eq_ok_iff.mpr hchecked, ?_⟩
    rw [← hdoc]
    rfl

/-- The declarations of a document are sound, and they are its own. -/
theorem ofDocument_eq_ok {d : Document} {ds : Declarations} (h : ofDocument d = .ok ds) :
    ds.Sound ∧ ds.document = d.withBase ∧ classify d.withBase.scalars d.types = .ok ds.classified := by
  obtain ⟨hdoc, hclassified, -⟩ := ofDocument_eq_ok_iff.mp h
  obtain ⟨hnodup, hunscalared⟩ := classify_names hclassified
  exact ⟨⟨hnodup, hdoc ▸ hunscalared⟩, hdoc, hclassified⟩

/-- The declarations of a role are those of the document that have it, in their order. -/
theorem ofRole_of_ofDocument {d : Document} {ds : Declarations} (h : ofDocument d = .ok ds) (role : Role) :
    ds.ofRole role = d.types.filter fun t => t.role? = some role :=
  classified_of_role (ofDocument_eq_ok h).2.2 role

variable {ds : Declarations}

/-- The declarations of a role. -/
theorem mem_ofRole {role : Role} {t : TypeDeclaration} :
    t ∈ ds.ofRole role ↔ (role, t) ∈ ds.classified := by
  simp [ofRole]

/-- A name decides a declaration with its role. -/
theorem Sound.eq_of_name (h : ds.Sound) {r r' : Role} {t t' : TypeDeclaration} (ht : t ∈ ds.ofRole r)
    (ht' : t' ∈ ds.ofRole r') (hname : t.name = t'.name) : r = r' ∧ t = t' :=
  Prod.mk.inj (List.inj_on_of_nodup_map h.apart (mem_ofRole.mp ht) (mem_ofRole.mp ht') hname)

/-- The names of the declarations of a role are different. -/
theorem Sound.ofRole_nodup (h : ds.Sound) (role : Role) :
    ((ds.ofRole role).map (·.name)).Nodup := by
  have hsub : ((ds.ofRole role).map (·.name)).Sublist (ds.classified.map classifiedName) := by
    rw [ofRole, List.map_filterMap]
    induction ds.classified with
    | nil => exact List.Sublist.refl _
    | cons p rest ih =>
      by_cases hp : p.1 = role
      · simpa [hp, classifiedName] using ih.cons_cons p.2.name
      · simpa [hp, classifiedName] using ih.cons p.2.name
  exact hsub.nodup h.apart

/-- A role holds a name when a declaration of that role has it. -/
theorem has_iff {role : Role} {name : String} :
    ds.has role name = true ↔ ∃ t ∈ ds.ofRole role, t.name = name := by
  simp [has]

/-- A name that a role holds is held by no other one. -/
theorem Sound.has_unique (h : ds.Sound) {r r' : Role} {name : String} (hr : ds.has r name = true)
    (hr' : ds.has r' name = true) : r = r' := by
  obtain ⟨t, ht, htn⟩ := has_iff.mp hr
  obtain ⟨t', ht', htn'⟩ := has_iff.mp hr'
  exact (h.eq_of_name ht ht' (htn.trans htn'.symm)).1

/-- A name that a role holds is no scalar. -/
theorem Sound.not_scalar (h : ds.Sound) {r : Role} {name : String} (hr : ds.has r name = true) :
    name ∉ ds.document.scalars := by
  obtain ⟨t, ht, rfl⟩ := has_iff.mp hr
  exact h.unscalared (r, t) (mem_ofRole.mp ht)

/-- The lookup of an entity finds the declaration of that name. -/
theorem Sound.entity?_eq_some (h : ds.Sound) {name : String} {t : TypeDeclaration} :
    ds.entity? name = some t ↔ t ∈ ds.ofRole .entity ∧ t.name = name := by
  constructor
  · intro hfind
    exact ⟨List.mem_of_find?_eq_some hfind, by simpa using List.find?_some hfind⟩
  · rintro ⟨ht, rfl⟩
    obtain ⟨t', hfind⟩ : ∃ t', ds.entity? t.name = some t' :=
      Option.isSome_iff_exists.mp (List.find?_isSome.mpr ⟨t, ht, by simp⟩)
    have hname : t'.name = t.name := by simpa using List.find?_some hfind
    rw [hfind, (h.eq_of_name (List.mem_of_find?_eq_some hfind) ht hname).2]

end Declarations

end SchemaReconcile
