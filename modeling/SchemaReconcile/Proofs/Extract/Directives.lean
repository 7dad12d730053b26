import SchemaReconcile.Proofs.Extract.Names
import SchemaReconcile.Proofs.Refusals
import SchemaReconcile.Proofs.Value.Entries

/-!
# Checked directives

A directive use passes when its directive is declared for its place, each of its arguments is declared and
fits, and no argument is lacking; what else the check may find is listed once (`usageVerdict`).  The checks
of a document go through the uses on every declaration and on its fields (`checkDirectives_ok`,
`checked_of_ofDocument`), and a refusal is about one of these uses (`refuses_checkDirectives`).
-/

namespace SchemaReconcile

/-- A directive use of a declaration: on it, or on the field of a name. -/
inductive TypeDeclaration.Uses (t : TypeDeclaration) : Option String → DirectiveUsage → Prop where
  | own {u : DirectiveUsage} (hu : u ∈ t.directives) : t.Uses none u
  | field {f : FieldDeclaration} {u : DirectiveUsage} (hf : f ∈ t.fields) (hu : u ∈ f.directives) :
      t.Uses (some f.name) u

/-- The place that the uses on a declaration, or on a field of it, are checked for. -/
def placeOf : Option String → String
  | none => objectPlace
  | some _ => fieldPlace

/-- The items of a list that fits a list type fit it. -/
theorem fitsItem_of_fitItems {type : TypeRef} {items : List Value} (h : fitItems type items = true) :
    ∀ v ∈ items, fitsItem type v = true := by
  induction items with
  | nil => simp
  | cons v rest ih =>
    rw [fitItems, Bool.and_eq_true] at h
    exact List.forall_mem_cons.mpr ⟨h.1, ih h.2⟩

variable {doc : Document} {place : String} {u : DirectiveUsage}

/-! ## One use -/

/-- Whether a directive is declared for a place. -/
def DirectiveDeclaration.Allows (dd : DirectiveDeclaration) (place : String) : Prop :=
  dd.locations = [] ∨ place ∈ dd.locations

/-- What the check of an argument finds. -/
inductive ArgumentVerdict (dd : DirectiveDeclaration) (k v : Value) : Option DirectiveFault → Prop where
  | unknown (ha : dd.argument? k.display = none) :
      ArgumentVerdict dd k v (some (.unknownArgument k.display))
  | type {a : ArgumentDeclaration} (ha : dd.argument? k.display = some a) (hfits : fits a.type v = false)
      (hv : v.isWritable = true) : ArgumentVerdict dd k v (some (.argumentType k.display a.type v.shown))
  | unwritable {a : ArgumentDeclaration} (ha : dd.argument? k.display = some a)
      (hfits : fits a.type v = false) (hv : v.isWritable = false) :
      ArgumentVerdict dd k v (some (.unwritable k.display .longNumber))
  | passed {a : ArgumentDeclaration} (ha : dd.argument? k.display = some a) (hfits : fits a.type v = true) :
      ArgumentVerdict dd k v none

/-- The check of an argument, case by case. -/
theorem argumentVerdict (dd : DirectiveDeclaration) (k v : Value) :
    ArgumentVerdict dd k v (argumentFault? dd k v) := by
  unfold argumentFault?
  cases ha : dd.argument? k.display with
  | none => exact .unknown ha
  | some a =>
    cases hfits : fits a.type v with
    | true =>
      simp only [if_pos hfits]
      exact .passed ha hfits
    | false =>
      simp only [hfits, Bool.false_eq_true, if_false]
      cases hv : v.isWritable with
      | true =>
        simp only [Value.written, hv, if_true]
        exact .type ha hfits hv
      | false =>
        simp only [Value.written, hv, Bool.false_eq_true, if_false]
        exact .unwritable ha hfits hv

/-- What the check of a directive use finds. -/
inductive UsageVerdict (doc : Document) (place : String) (u : DirectiveUsage) :
    Option DirectiveFault → Prop where
  | unknown (hdd : doc.directive? u.name = none) : UsageVerdict doc place u (some .unknown)
  | misplaced {dd : DirectiveDeclaration} (hdd : doc.directive? u.name = some dd)
      (hplace : ¬ dd.Allows place) : UsageVerdict doc place u (some .misplaced)
  | argument {dd : DirectiveDeclaration} {k v : Value} {fault : DirectiveFault}
      (hdd : doc.directive? u.name = some dd) (hplace : dd.Allows place) (hkv : (k, v) ∈ u.arguments)
      (hfault : ArgumentVerdict dd k v (some fault)) : UsageVerdict doc place u (some fault)
  | missing {dd : DirectiveDeclaration} {a : ArgumentDeclaration}
      (hdd : doc.directive? u.name = some dd) (hplace : dd.Allows place)
      (hfits : ∀ p ∈ u.arguments, ArgumentVerdict dd p.1 p.2 none) (ha : a ∈ dd.arguments)
      (hlacks : lacksArgument u a = true) : UsageVerdict doc place u (some (.missingArgument a.name))
  | passed {dd : DirectiveDeclaration} (hdd : doc.directive? u.name = some dd)
      (hplace : dd.Allows place) (hfits : ∀ p ∈ u.arguments, ArgumentVerdict dd p.1 p.2 none)
      (hgiven : ∀ a ∈ dd.arguments, lacksArgument u a = false) : UsageVerdict doc place u none

/-- The check of a directive use, case by case. -/
theorem usageVerdict (doc : Document) (place : String) (u : DirectiveUsage) :
    UsageVerdict doc place u (usageFault? doc place u) := by
  unfold usageFault?
  split
  · next hdd => exact .unknown hdd
  · next dd hdd =>
    have hallows : (!dd.locations.isEmpty && !dd.locations.contains place) = true ↔
        ¬ dd.Allows place := by simp [DirectiveDeclaration.Allows]
    split
    · next hplace => exact .misplaced hdd (hallows.mp hplace)
    · next hplace =>
      have hplace : dd.Allows place := not_not.mp fun hnot => hplace (hallows.mpr hnot)
      split
      · next fault hfault =>
        obtain ⟨⟨k, v⟩, hkv, hfault⟩ := List.exists_of_findSome?_eq_some hfault
        have hfound : argumentFault? dd k v = some fault := hfault
        exact .argument hdd hplace hkv (hfound ▸ argumentVerdict dd k v)
      · next hnone =>
        have hfits : ∀ p ∈ u.arguments, ArgumentVerdict dd p.1 p.2 none := by
          intro p hp
          have hpnone : argumentFault? dd p.1 p.2 = none := List.findSome?_eq_none_iff.mp hnone p hp
          exact hpnone ▸ argumentVerdict dd p.1 p.2
        cases hfind : dd.arguments.find? (lacksArgument u) with
        | some a =>
          exact .missing hdd hplace hfits (List.mem_of_find?_eq_some hfind) (List.find?_some hfind)
        | none =>
          refine .passed hdd hplace hfits fun a ha => ?_
          simpa using List.find?_eq_none.mp hfind a ha

/-! ## All uses -/

/-- A refusal of uses is about one of them. -/
theorem refuses_checkUsages {P : ExtractFault → Prop} {site : DirectiveSite}
    {usages : List DirectiveUsage}
    (h : ∀ u ∈ usages, ∀ fault, usageFault? doc place u = some fault → P (.directive u.name site fault)) :
    Refuses P (checkUsages doc place site usages) := by
  unfold checkUsages
  split
  · next name fault hfault =>
    obtain ⟨u, hu, hfault⟩ := List.exists_of_findSome?_eq_some hfault
    obtain ⟨fault', hfault, ⟨⟩⟩ := Option.map_eq_some_iff.mp hfault
    exact .error (h u hu _ hfault)
  · exact .ok ()

/-- Uses pass when each of them does. -/
theorem checkUsages_ok {site : DirectiveSite} {usages : List DirectiveUsage}
    (h : checkUsages doc place site usages = .ok ()) : ∀ u ∈ usages, usageFault? doc place u = none := by
  unfold checkUsages at h
  split at h
  · cases h
  · next hnone =>
    intro u hu
    exact Option.map_eq_none_iff.mp (List.findSome?_eq_none_iff.mp hnone u hu)

/-- A refusal of the directives of a declaration is about a use on it or on one of its fields. -/
theorem refuses_checkDirectives {P : ExtractFault → Prop} {t : TypeDeclaration}
    (h : ∀ field u, t.Uses field u → ∀ fault, usageFault? doc (placeOf field) u = some fault →
      P (.directive u.name ⟨t.name, field⟩ fault)) :
    Refuses P (checkDirectives doc t) := by
  refine .bind (refuses_checkUsages fun u hu => h none u (.own hu)) fun _ _ => ?_
  refine .bind (x := forIn t.fields () _) (.forIn fun f hf => ?_) fun _ _ => .ok ()
  exact .bind (refuses_checkUsages fun u hu => h (some f.name) u (.field hf hu)) fun _ _ => .ok _

/-- The directives of a declaration pass when the uses on it and on its fields do. -/
theorem checkDirectives_ok {t : TypeDeclaration} (h : checkDirectives doc t = .ok ())
    {field : Option String} (hu : t.Uses field u) : usageFault? doc (placeOf field) u = none := by
  obtain ⟨⟨⟩, htype, h⟩ := bind_eq_ok.mp h
  obtain ⟨⟨⟩, hfields, -⟩ := bind_eq_ok.mp h
  cases hu with
  | own hu => exact checkUsages_ok htype u hu
  | field hf hu => exact checkUsages_ok (forIn_check_eq_ok_iff.mp hfields _ hf) u hu

/-- The directives of every declaration of a document have passed. -/
theorem checked_of_ofDocument {d : Document} {ds : Declarations} (h : Declarations.ofDocument d = .ok ds) :
    ∀ t ∈ d.types, checkDirectives d.withBase t = .ok () :=
  (Declarations.ofDocument_eq_ok_iff.mp h).2.2

end SchemaReconcile
