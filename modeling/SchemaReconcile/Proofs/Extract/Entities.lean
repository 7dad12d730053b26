import SchemaReconcile.Proofs.Extract.Declarations
import SchemaReconcile.Proofs.Extract.Storage

/-!
# Entities of a document

Each declared field yields one part: a derived field its name, any other its stored field with an index.
What a part may hold is read off the field type (`Declarations.Typed`), which the declarations decide: a name
of an entity can only be a reference.  So the field that a derived field points back at is stored, refers to
the owner of the derived field, and is the one that a lookup by its name finds.
-/

namespace SchemaReconcile

/-- Whether a declared field is stored: all are but the derived ones. -/
def FieldDeclaration.isStored (f : FieldDeclaration) : Bool := f.derivedFrom?.isNone

namespace Declarations

variable {ds : Declarations}

/-! ## Fields -/

/-- A field type is one that a type name stands for. -/
def Typed (ds : Declarations) (name : String) : FieldType → Prop
  | .scalar kind => ds.scalarKind? name = .ok (some kind)
  | .enumeration e => e = name ∧ ds.has .enumeration name = true
  | .shape s => s = name ∧ ds.has .shape name = true
  | .reference e => e = name ∧ ds.has .entity name = true

/-- Only declared scalars have a scalar kind. -/
theorem mem_scalars_of_scalarKind {name : String} {kind : FieldKind}
    (h : ds.scalarKind? name = .ok (some kind)) : name ∈ ds.document.scalars := by
  unfold scalarKind? at h
  split at h
  · next hscalar => simpa using hscalar
  · cases h

/-- The name of an entity stands for a reference to it. -/
theorem Sound.typed_entity (h : ds.Sound) {name : String} {type : FieldType}
    (hentity : ds.has .entity name = true) (htype : ds.Typed name type) : type = .reference name := by
  cases type with
  | scalar kind => exact absurd (mem_scalars_of_scalarKind htype) (h.not_scalar hentity)
  | enumeration e => cases h.has_unique hentity htype.2
  | shape s => cases h.has_unique hentity htype.2
  | reference e => rw [htype.1]

/-- A stored field is what its declaration says, with a type that the declared type name stands for; neither
an identifier nor a reference is a list. -/
theorem buildField_eq {owner : TypeDeclaration} {f : FieldDeclaration} {g : EntityField}
    (h : ds.buildField owner f = .ok g) :
    ∃ type, ds.Typed f.type.name type ∧
      g = { name := f.name, type, nullable := f.type.nullable, isArray := f.type.isArray,
            description := f.description } ∧
      (f.type.isArray = true → type ≠ .scalar .id ∧ ∀ entity, type ≠ .reference entity) := by
  obtain ⟨kind?, hkind, h⟩ := bind_eq_ok.mp h
  cases kind? with
  | some kind =>
    dsimp only at h
    split at h
    · cases h
    · next hlist =>
      obtain rfl := Except.ok.inj h
      refine ⟨.scalar kind, hkind, rfl, fun harray => ⟨?_, fun _ => nofun⟩⟩
      rintro ⟨⟩
      simp [harray] at hlist
  | none =>
    dsimp only at h
    split at h
    · next henum =>
      obtain rfl := Except.ok.inj h
      exact ⟨.enumeration f.type.name, ⟨rfl, henum⟩, rfl, fun _ => ⟨nofun, fun _ => nofun⟩⟩
    · split at h
      · next hshape =>
        obtain rfl := Except.ok.inj h
        exact ⟨.shape f.type.name, ⟨rfl, hshape⟩, rfl, fun _ => ⟨nofun, fun _ => nofun⟩⟩
      · split at h
        · next hentity =>
          split at h
          · cases h
          · next hlist =>
            obtain rfl := Except.ok.inj h
            exact ⟨.reference f.type.name, ⟨rfl, hentity⟩, rfl, fun harray => absurd harray hlist⟩
        · cases h

/-- A stored field keeps the name of its declaration, and its type is one of the declared type name. -/
theorem buildField_ok {owner : TypeDeclaration} {f : FieldDeclaration} {g : EntityField}
    (h : ds.buildField owner f = .ok g) : g.name = f.name ∧ ds.Typed f.type.name g.type := by
  obtain ⟨type, htype, rfl, -⟩ := buildField_eq h
  exact ⟨rfl, htype⟩

/-- A derived field points at a declared field of an entity that refers to its owner and is stored. -/
theorem checkDerived_ok {owner : TypeDeclaration} {f : FieldDeclaration} {u : DirectiveUsage}
    (h : ds.checkDerived owner f u = .ok ()) :
    ∃ target c, ds.entity? f.type.name = some target ∧
      (target.fields.find? fun c => c.name == backField u) = some c ∧
      c.type.name = owner.name ∧ c.derivedFrom? = none := by
  unfold checkDerived at h
  split at h
  · cases h
  · split at h
    · cases h
    · next target htarget =>
      dsimp only at h
      split at h
      · cases h
      · next c hc =>
        split at h
        · cases h
        · next hrefers =>
          split at h
          · cases h
          · next hstored =>
            refine ⟨target, c, htarget, hc, ?_, by simpa using hstored⟩
            simp only [Bool.or_eq_true, bne_iff_ne, ne_eq, not_or, not_not] at hrefers
            exact hrefers.1

/-! ## Parts -/

/-- The part of a derived field. -/
theorem fieldPart_derived {owner : TypeDeclaration} {f : FieldDeclaration} {u : DirectiveUsage}
    {p : FieldPart} (hf : f.derivedFrom? = some u) (h : ds.fieldPart owner f = .ok p) :
    ds.checkDerived owner f u = .ok () ∧ p = .derived f.name := by
  rw [fieldPart, hf] at h
  obtain ⟨⟨⟩, hcheck, h⟩ := bind_eq_ok.mp h
  exact ⟨hcheck, (Except.ok.inj h).symm⟩

/-- The part of a stored field. -/
theorem fieldPart_stored {owner : TypeDeclaration} {f : FieldDeclaration} {p : FieldPart}
    (hf : f.derivedFrom? = none) (h : ds.fieldPart owner f = .ok p) :
    ∃ g index, ds.buildField owner f = .ok g ∧ fieldIndex? owner f = .ok index ∧
      p = .stored g index := by
  rw [fieldPart, hf] at h
  obtain ⟨g, hg, h⟩ := bind_eq_ok.mp h
  obtain ⟨index, hindex, h⟩ := bind_eq_ok.mp h
  exact ⟨g, index, hg, hindex, (Except.ok.inj h).symm⟩

/-- The index of a field names that field alone. -/
theorem fields_of_fieldIndex {owner : TypeDeclaration} {f : FieldDeclaration} {spec : IndexSpec}
    (h : fieldIndex? owner f = .ok (some spec)) : spec.fields = [f.name] := by
  unfold fieldIndex? at h
  split at h
  · cases h
  · obtain ⟨method, -, h⟩ := bind_eq_ok.mp h
    obtain rfl := Option.some.inj (Except.ok.inj h)
    rfl

/-- The declared fields that are not derived yield the stored fields, in their order. -/
theorem storedParts {owner : TypeDeclaration} {fields : List FieldDeclaration} {parts : List FieldPart}
    (h : List.Forall₂ (fun f p => ds.fieldPart owner f = .ok p) fields parts) :
    List.Forall₂ (fun f g => ds.buildField owner f = .ok g) (fields.filter FieldDeclaration.isStored)
      (parts.filterMap FieldPart.field?) := by
  refine forall₂_filter_filterMap h fun f p hpart => ?_
  cases hderived : f.derivedFrom? with
  | some u =>
    obtain ⟨-, rfl⟩ := fieldPart_derived hderived hpart
    exact .inl ⟨by simp [FieldDeclaration.isStored, hderived], rfl⟩
  | none =>
    obtain ⟨g, index, hg, -, rfl⟩ := fieldPart_stored hderived hpart
    exact .inr ⟨by simp [FieldDeclaration.isStored, hderived], g, rfl, hg⟩

/-- Where the first declared field of a name is stored, its stored field is the first of that name. -/
theorem find_stored {owner : TypeDeclaration} {fields : List FieldDeclaration} {parts : List FieldPart}
    (h : List.Forall₂ (fun f p => ds.fieldPart owner f = .ok p) fields parts) {name : String}
    {c : FieldDeclaration} (hc : (fields.find? fun f => f.name == name) = some c)
    (hstored : c.derivedFrom? = none) :
    ∃ g, ((parts.filterMap FieldPart.field?).find? fun g => g.name == name) = some g ∧
      ds.buildField owner c = .ok g := by
  induction h with
  | nil => cases hc
  | @cons f p fields parts hhead _ ih =>
    by_cases hname : f.name = name
    · obtain rfl : f = c := by simpa [hname] using hc
      obtain ⟨g, index, hg, -, rfl⟩ := fieldPart_stored hstored hhead
      have hgname : g.name = name := (buildField_ok hg).1.trans hname
      exact ⟨g, by simp [FieldPart.field?, hgname], hg⟩
    · obtain ⟨g, hfind, hg⟩ := ih (by simpa [hname] using hc)
      refine ⟨g, ?_, hg⟩
      cases hderived : f.derivedFrom? with
      | some u =>
        obtain ⟨-, rfl⟩ := fieldPart_derived hderived hhead
        simpa [FieldPart.field?] using hfind
      | none =>
        obtain ⟨g', index, hg', -, rfl⟩ := fieldPart_stored hderived hhead
        have hne : ¬ g'.name = name := by
          rw [(buildField_ok hg').1]
          exact hname
        simpa [FieldPart.field?, hne] using hfind

end Declarations

/-! ## Indexes -/

/-- An index is over fields of certain names: it names at least one of them, and none twice. -/
structure IndexSpec.Over (spec : IndexSpec) (stored : List String) : Prop where
  nonempty : spec.fields ≠ []
  nodup : spec.fields.Nodup
  stored : ∀ name ∈ spec.fields, name ∈ stored

/-- A name in an index group is the text that it was given as, and that of a stored field. -/
theorem checkGroupName_ok {owner : String} {stored derived : List String} {v : Value} {name : String}
    (h : checkGroupName owner stored derived v = .ok name) : v = .text name ∧ name ∈ stored := by
  unfold checkGroupName at h
  split at h
  · split at h
    · cases h
    · split at h
      · next hstored =>
        obtain rfl := Except.ok.inj h
        exact ⟨rfl, by simpa using hstored⟩
      · cases h
  · cases h

/-- Texts that do not repeat a key are different. -/
theorem nodup_of_repeatsKey {names : List String} (h : repeatsKey (names.map Value.text) = false) :
    names.Nodup := by
  induction names with
  | nil => exact List.nodup_nil
  | cons name rest ih =>
    rw [List.map_cons, repeatsKey, Bool.or_eq_false_iff] at h
    refine List.nodup_cons.mpr ⟨?_, ih h.2⟩
    intro hmem
    have hsame : Value.sameKey (.text name) (.text name) = true := by
      simp [Value.sameKey, Value.sameScalar]
    have hany := List.any_eq_false.mp h.1 (.text name) (List.mem_map.mpr ⟨name, hmem, rfl⟩)
    exact hany hsame

/-- The index of a group is over stored fields. -/
theorem groupIndex_ok {owner : String} {stored derived : List String} {v : Value} {spec : IndexSpec}
    (h : groupIndex owner stored derived v = .ok spec) : spec.Over stored := by
  unfold groupIndex at h
  split at h
  · next first more =>
    dsimp only at h
    split at h
    · cases h
    · split at h
      · cases h
      · next hrepeats =>
        obtain ⟨fields, hfields, h⟩ := bind_eq_ok.mp h
        obtain rfl := Except.ok.inj h
        have hchecked := mapM_eq_ok_iff.mp hfields
        have hnames : fields.map Value.text = first :: more := by
          have := map_eq_map_of_forall₂ (f := id) hchecked fun v name hv => (checkGroupName_ok hv).1.symm
          rwa [List.map_id] at this
        refine ⟨?_, ?_, ?_⟩
        · rintro rfl
          cases hnames
        · rw [← hnames] at hrepeats
          exact nodup_of_repeatsKey (by simpa using hrepeats)
        · intro name hname
          obtain ⟨v, -, hv⟩ := exists_left_of_forall₂ hchecked hname
          exact (checkGroupName_ok hv).2
  · cases h

/-- The indexes over several fields are over stored fields. -/
theorem groupIndexes_ok {owner : TypeDeclaration} {stored derived : List String}
    {specs : List IndexSpec} (h : groupIndexes owner stored derived = .ok specs) :
    ∀ spec ∈ specs, spec.Over stored := by
  unfold groupIndexes at h
  split at h
  · obtain rfl := Except.ok.inj h
    simp
  · split at h
    · intro spec hspec
      obtain ⟨v, -, hv⟩ := exists_left_of_forall₂ (mapM_eq_ok_iff.mp h) hspec
      exact groupIndex_ok hv
    · obtain rfl := Except.ok.inj h
      simp

end SchemaReconcile
