import SchemaReconcile.Extract.Basic
import SchemaReconcile.Proofs.Document.Schema
import SchemaReconcile.Proofs.Extract.Refusals

/-!
# Directives of schema texts

The directive uses of a schema text are checked twice: by the rules of schema documents, and again by the
extraction, which only knows the directives as the document declares them.  A directive is found by both under
the same names (`directive?_withBase`), with one exception for what the language itself defines, and the rules
leave no argument unknown and none without a default missing (`Sdl.Admits`).  What is left are the cases of
`DirectiveGap`, where the second check knows less than the first or asks for more; an unknown argument is not
among them.

Each fault of the second check is a gap (`gap_of_usageFault?`) and each gap is a fault (`usageFault?_of_gap`);
the result for a whole text is `schemaText_directives`.
-/

namespace SchemaReconcile

open Sdl (DirectiveUse)

variable {text : String} {d : Document} {defs : List Sdl.Definition} {cs : List Contribution}
  {td : Sdl.TypeDefinition} {field : Option String} {location : String} {u : DirectiveUse}
  {dd : Sdl.DirectiveDefinition}

/-! ## Rules of accepted texts -/

namespace Sdl

/-- The members of a list with different names are different. -/
theorem nodup_of_allDistinct {α : Type} [BEq α] [LawfulBEq α] {xs : List α} (h : allDistinct xs = true) :
    xs.Nodup := by
  induction xs with
  | nil => exact .nil
  | cons x rest ih =>
    rw [allDistinct, Bool.and_eq_true, Bool.not_eq_true'] at h
    refine List.nodup_cons.mpr ⟨fun hmem => ?_, ih h.2⟩
    rw [List.contains_iff_mem.mpr hmem] at h
    cases h.1

/-- A use that a document takes stands at a site of its definition. -/
theorem TypeDefinition.Uses.exists_site (hu : td.Uses field location u) :
    ∃ uses, (location, uses) ∈ (Definition.type td).sites ∧ u ∈ uses := by
  cases hu with
  | object hbody hu =>
    refine ⟨td.directives, ?_, hu⟩
    rw [Definition.sites, hbody]
    exact List.mem_cons_self
  | enumeration hbody hu =>
    refine ⟨td.directives, ?_, hu⟩
    rw [Definition.sites, hbody]
    exact List.mem_cons_self
  | @field _ fields f _ hbody hf hu =>
    refine ⟨f.directives, List.mem_cons_of_mem _ ?_, hu⟩
    rw [hbody, TypeBody.sites]
    refine List.mem_append_left _ (List.mem_append_left _ ?_)
    exact List.mem_flatMap.mpr ⟨f, hf, List.mem_cons_self⟩

/-- What the rules say of a directive use with its definition: it stands where the directive may, its arguments
are declared, and no required argument is left out. -/
structure Admits (dd : DirectiveDefinition) (location : String) (u : DirectiveUse) : Prop where
  name : dd.name = u.name
  location : location ∈ dd.locations
  known : ∀ p ∈ u.arguments, ∃ a ∈ dd.arguments, a.name = p.1
  complete : ∀ a ∈ dd.arguments, ∀ inner, a.type = .nonNull inner → a.default = none →
    ∃ p ∈ u.arguments, p.1 = a.name

variable {env : Environment}

/-- The directive of a use that a document takes is known and admits the use. -/
theorem exists_admits (hvalid : valid env defs = true) (htd : .type td ∈ defs)
    (hu : td.Uses field location u) : ∃ dd, env.directive? defs u.name = some dd ∧ Admits dd location u := by
  obtain ⟨uses, hsite, huses⟩ := hu.exists_site
  simp only [valid, Bool.and_eq_true] at hvalid
  obtain ⟨⟨⟨⟨⟨⟨-, hdirectives⟩, -⟩, -⟩, harguments⟩, -⟩, -⟩ := hvalid
  rw [knownDirectives, List.all_eq_true] at hdirectives
  rw [completeArguments, List.all_eq_true] at harguments
  have hknown := List.all_eq_true.mp
    (hdirectives (location, uses) (List.mem_flatMap.mpr ⟨_, htd, hsite⟩)) u huses
  have hcomplete := harguments u (List.mem_flatMap.mpr ⟨_, htd, List.mem_flatMap.mpr ⟨_, hsite, huses⟩⟩)
  cases hdd : env.directive? defs u.name with
  | none =>
    rw [hdd] at hknown
    cases hknown
  | some dd =>
    rw [hdd] at hknown hcomplete
    obtain ⟨hgiven, hrequired⟩ := Bool.and_eq_true_iff.mp hcomplete
    refine ⟨dd, rfl, by simpa using List.find?_some hdd, List.contains_iff_mem.mp hknown, ?_, ?_⟩
    · intro p hp
      obtain ⟨a, ha, hname⟩ := List.any_eq_true.mp (List.all_eq_true.mp hgiven p hp)
      exact ⟨a, ha, beq_iff_eq.mp hname⟩
    · intro a ha inner htype hdefault
      have h := List.all_eq_true.mp hrequired a ha
      rw [htype, hdefault] at h
      obtain ⟨p, hp, hname⟩ := List.any_eq_true.mp h
      exact ⟨p, hp, beq_iff_eq.mp hname⟩

/-- A directive that a document declares has a name of its own, and arguments with different names. -/
theorem declared_of_valid (hvalid : valid env defs = true) :
    ∀ dd ∈ declaredDirectives defs,
      (∀ b ∈ env.directives, b.name ≠ dd.name) ∧ (dd.arguments.map (·.name)).Nodup := by
  simp only [valid, uniqueNames, Bool.and_eq_true, List.all_eq_true] at hvalid
  obtain ⟨⟨⟨⟨⟨⟨⟨⟨-, ⟨⟨⟨⟨⟨-, hother⟩, -⟩, -⟩, -⟩, harguments⟩⟩, -⟩, -⟩, -⟩, -⟩, -⟩, -⟩, -⟩ := hvalid
  intro dd hdd
  refine ⟨fun b hb hname => ?_, nodup_of_allDistinct (harguments dd hdd)⟩
  have hnone := hother dd.name (List.mem_map_of_mem hdd)
  rw [Bool.not_eq_true', List.any_eq_false] at hnone
  exact hnone b hb (beq_iff_eq.mpr hname)

end Sdl

/-! ## Directives of the document -/

/-- The directives of the base environment that every document declares as well. -/
abbrev sharedDirectives : List Sdl.DirectiveDefinition := baseEnvironment.directives.take 5

/-- The directives of the base environment that no document declares. -/
abbrev builtinDirectives : List Sdl.DirectiveDefinition := baseEnvironment.directives.drop 5

/-- The base directives of a document are declared as the environment defines them. -/
theorem map_declaration_sharedDirectives :
    sharedDirectives.map Sdl.DirectiveDefinition.declaration = baseDirectives := by
  decide

/-- The arguments of the directives of the environment have different names. -/
theorem nodup_arguments_of_base :
    ∀ dd ∈ baseEnvironment.directives, (dd.arguments.map (·.name)).Nodup := by
  decide

/-- Of the directives that no document declares, one may stand where a document takes directives from. -/
theorem deprecated_of_builtin : ∀ dd ∈ builtinDirectives, ∀ location ∈ [objectPlace, "ENUM", fieldPlace],
    location ∈ dd.locations → dd.name = "deprecated" ∧ location = fieldPlace := by
  decide

/-- A directive is found in a document when the text declares it or it is a base directive. -/
theorem directive?_withBase (hvalid : Sdl.valid baseEnvironment defs = true)
    (hcs : List.Forall₂ (fun d c => contribution d = .ok c) defs cs) (name : String) :
    (Document.ofContributions cs).withBase.directive? name =
      ((Sdl.declaredDirectives defs ++ sharedDirectives).find? fun dd => dd.name == name).map
        Sdl.DirectiveDefinition.declaration := by
  have hnew : ∀ dd ∈ Sdl.declaredDirectives defs, ∀ b ∈ sharedDirectives, b.name ≠ dd.name :=
    fun dd hdd b hb => (Sdl.declared_of_valid hvalid dd hdd).1 b (List.mem_of_mem_take hb)
  have hkept : ((Document.ofContributions cs).directives.filter fun x =>
      !baseDirectives.any fun b => b.name == x.name) =
        (Sdl.declaredDirectives defs).map Sdl.DirectiveDefinition.declaration := by
    rw [directives_ofContributions hcs]
    refine List.filter_eq_self.mpr fun x hx => ?_
    obtain ⟨dd, hdd, rfl⟩ := List.mem_map.mp hx
    rw [← map_declaration_sharedDirectives, Bool.not_eq_true', List.any_map, List.any_eq_false]
    exact fun b hb hname => hnew dd hdd b hb (beq_iff_eq.mp hname)
  have hfind : ∀ xs : List Sdl.DirectiveDefinition,
      (xs.map Sdl.DirectiveDefinition.declaration).find? (fun x => x.name == name) =
        (xs.find? fun dd => dd.name == name).map Sdl.DirectiveDefinition.declaration := fun xs =>
    List.find?_map
  rw [Document.directive?, Document.withBase, hkept, ← map_declaration_sharedDirectives,
    List.find?_append, List.find?_append, hfind, hfind]
  cases hdd : (Sdl.declaredDirectives defs).find? fun dd => dd.name == name with
  | none => simp
  | some dd =>
    have hname : dd.name = name := by simpa using List.find?_some hdd
    have hnone : (sharedDirectives.find? fun b => b.name == name) = none := by
      refine List.find?_eq_none.mpr fun b hb hb' => ?_
      exact hnew dd (List.mem_of_find?_eq_some hdd) b hb ((beq_iff_eq.mp hb').trans hname.symm)
    rw [hnone]
    rfl

/-- The directive that the rules find for a name is declared in the document, or it is one of those that no
document declares. -/
theorem directive?_cases (hvalid : Sdl.valid baseEnvironment defs = true)
    (hcs : List.Forall₂ (fun d c => contribution d = .ok c) defs cs) {name : String}
    (hdd : baseEnvironment.directive? defs name = some dd) :
    (Document.ofContributions cs).withBase.directive? name = some dd.declaration ∨
      (Document.ofContributions cs).withBase.directive? name = none ∧ dd ∈ builtinDirectives := by
  have hsplit : baseEnvironment.directives = sharedDirectives ++ builtinDirectives :=
    (List.take_append_drop 5 _).symm
  rw [Sdl.Environment.directive?, hsplit, ← List.append_assoc, List.find?_append] at hdd
  rw [directive?_withBase hvalid hcs]
  cases hfound : (Sdl.declaredDirectives defs ++ sharedDirectives).find? fun dd => dd.name == name with
  | some dd' =>
    rw [hfound] at hdd
    obtain rfl := Option.some.inj hdd
    exact .inl rfl
  | none =>
    rw [hfound, Option.none_or] at hdd
    exact .inr ⟨rfl, List.mem_of_find?_eq_some hdd⟩

/-- A directive that is found in the document is the one that the rules find. -/
theorem eq_declaration_of_directive? (hvalid : Sdl.valid baseEnvironment defs = true)
    (hcs : List.Forall₂ (fun d c => contribution d = .ok c) defs cs) {name : String}
    (hdd : baseEnvironment.directive? defs name = some dd) {declared : DirectiveDeclaration}
    (hdeclared : (Document.ofContributions cs).withBase.directive? name = some declared) :
    declared = dd.declaration := by
  rcases directive?_cases hvalid hcs hdd with h | ⟨h, -⟩
  · exact Option.some.inj (hdeclared.symm.trans h)
  · rw [h] at hdeclared
    cases hdeclared

/-- The arguments of a directive that the rules find have different names. -/
theorem nodup_arguments (hvalid : Sdl.valid baseEnvironment defs = true) {name : String}
    (hdd : baseEnvironment.directive? defs name = some dd) : (dd.arguments.map (·.name)).Nodup := by
  rcases List.mem_append.mp (List.mem_of_find?_eq_some hdd) with hdeclared | hbase
  · exact (Sdl.declared_of_valid hvalid dd hdeclared).2
  · exact nodup_arguments_of_base dd hbase

/-- An argument of a declaration is found as it is in the definition. -/
theorem argument?_declaration (dd : Sdl.DirectiveDefinition) (n : String) :
    dd.declaration.argument? n =
      (dd.arguments.find? fun a => a.name == n).map fun a => ⟨a.name, .ofExpr a.type⟩ :=
  List.find?_map

/-! ## Arguments -/

/-- The entries of named literals have their names as keys. -/
theorem forall₂_of_literalEntries {given : List (String × Sdl.Literal)} {entries : List (Value × Value)}
    (h : literalEntries given = .ok entries) :
    List.Forall₂ (fun p q => q.1 = .text p.1 ∧ literalValue p.2 = .ok q.2) given entries := by
  induction given generalizing entries with
  | nil =>
    obtain rfl := Except.ok.inj h
    exact .nil
  | cons p rest ih =>
    obtain ⟨w, hw, h⟩ := bind_eq_ok.mp h
    obtain ⟨later, hlater, h⟩ := bind_eq_ok.mp h
    obtain rfl := Except.ok.inj h
    exact .cons ⟨rfl, hw⟩ (ih hlater)

variable {v : DirectiveUsage}

/-- An argument of a usage is one that is given in the text. -/
theorem DirectiveUsage.IsOf.exists_given (hv : v.IsOf u) {n : String} {w : Value}
    (hw : v.argument? n = some w) : ∃ p ∈ u.arguments, p.1 = n := by
  obtain ⟨p, hp, hkey, -⟩ :=
    exists_left_of_forall₂ (forall₂_of_literalEntries hv.arguments) (Value.mem_of_entry? hw)
  exact ⟨p, hp, (Value.text.inj hkey).symm⟩

/-- An argument that is given in the text is one of the usage. -/
theorem DirectiveUsage.IsOf.exists_argument (hv : v.IsOf u) {p : String × Sdl.Literal}
    (hp : p ∈ u.arguments) : ∃ w, v.argument? p.1 = some w := by
  obtain ⟨⟨k, w⟩, hkw, hkey, -⟩ := exists_right_of_forall₂ (forall₂_of_literalEntries hv.arguments) hp
  obtain rfl : k = .text p.1 := hkey
  exact Value.exists_entry?_of_mem hkw

/-- An argument without null is only lacking when it is left out: a null that is given does not fit. -/
theorem left_out_of_lacks (hv : v.IsOf u) (hnodup : (dd.arguments.map (·.name)).Nodup)
    (hfits : ∀ p ∈ v.arguments, ArgumentVerdict dd.declaration p.1 p.2 none) {a : Sdl.InputValue}
    (ha : a ∈ dd.arguments) (hlacks : lacksArgument v ⟨a.name, .ofExpr a.type⟩ = true) :
    ∃ inner, a.type = .nonNull inner ∧ ∀ p ∈ u.arguments, p.1 ≠ a.name := by
  obtain ⟨hnullable, hnone⟩ := Bool.and_eq_true_iff.mp hlacks
  rw [Bool.not_eq_true'] at hnullable
  obtain ⟨inner, htype⟩ := (describes_ofExpr _).nullable.mp hnullable
  refine ⟨inner, htype, fun p hp hname => ?_⟩
  obtain ⟨w, hw⟩ := hv.exists_argument hp
  rw [hname] at hw
  rw [hw] at hnone
  obtain rfl : w = .null := by
    cases w with
    | null => rfl
    | _ => cases hnone
  cases hfits _ (Value.mem_of_entry? hw) with
  | passed ha' hfit =>
    have hfind := find?_of_nodup (·.name) hnodup ha
    rw [argument?_declaration, Value.display, hfind] at ha'
    obtain rfl := Option.some.inj ha'
    exact absurd (hnullable.symm.trans hfit) (by decide)

/-! ## Uses that are checked differently -/

/-- The ways in which a directive use that the rules allow is refused later, each with the fault of the
extraction. -/
inductive DirectiveGap (defs : List Sdl.Definition) (u : DirectiveUse) :
    Option String → String → DirectiveFault → Prop where
  /-- The directive is defined by the language itself, and no document declares it. -/
  | builtin {f : String} (hname : u.name = "deprecated") : DirectiveGap defs u (some f) fieldPlace .unknown
  /-- The use is on an enum type, and is checked as one on an object type. -/
  | enumeration {dd : Sdl.DirectiveDefinition} (hdd : baseEnvironment.directive? defs u.name = some dd)
      (henum : "ENUM" ∈ dd.locations) (hobject : objectPlace ∉ dd.locations) :
      DirectiveGap defs u none "ENUM" .misplaced
  /-- An argument is left out for its default, which a declaration does not hold. -/
  | default {dd : Sdl.DirectiveDefinition} {a : Sdl.InputValue} {inner : Sdl.TypeExpr} {l : Sdl.Literal}
      {field : Option String} {location : String} (hdd : baseEnvironment.directive? defs u.name = some dd)
      (ha : a ∈ dd.arguments) (htype : a.type = .nonNull inner) (hdefault : a.default = some l)
      (hgiven : ∀ p ∈ u.arguments, p.1 ≠ a.name) :
      DirectiveGap defs u field location (.missingArgument a.name)
  /-- The value of an argument does not fit its type, which the rules do not ask for. -/
  | value {dd : Sdl.DirectiveDefinition} {a : Sdl.InputValue} {n : String} {l : Sdl.Literal} {w : Value}
      {field : Option String} {location : String} {fault : DirectiveFault}
      (hdd : baseEnvironment.directive? defs u.name = some dd)
      (ha : (dd.arguments.find? fun a => a.name == n) = some a) (hl : (n, l) ∈ u.arguments)
      (hw : literalValue l = .ok w) (hfits : fits (.ofExpr a.type) w = false)
      (hfault : fault = .argumentType n (.ofExpr a.type) w.shown ∨ fault = .unwritable n .longNumber) :
      DirectiveGap defs u field location fault

/-- What the check of a use that the rules allow finds is one of the gaps. -/
theorem gap_of_usageFault? (hvalid : Sdl.valid baseEnvironment defs = true)
    (hcs : List.Forall₂ (fun d c => contribution d = .ok c) defs cs) (htd : .type td ∈ defs)
    (hu : td.Uses field location u) (hv : v.IsOf u) {fault : DirectiveFault}
    (h : usageFault? (Document.ofContributions cs).withBase (placeOf field) v = some fault) :
    DirectiveGap defs u field location fault := by
  obtain ⟨dd, hdd, hadmits⟩ := Sdl.exists_admits hvalid htd hu
  have hfound : ∀ {declared}, (Document.ofContributions cs).withBase.directive? v.name = some declared →
      declared = dd.declaration := fun h =>
    eq_declaration_of_directive? hvalid hcs hdd (hv.name ▸ h)
  have hverdict := usageVerdict (Document.ofContributions cs).withBase (placeOf field) v
  rw [h] at hverdict
  cases hverdict with
  | unknown hnone =>
    rcases directive?_cases hvalid hcs hdd with h | ⟨-, hbuiltin⟩
    · rw [← hv.name, hnone] at h
      cases h
    · have hlocation : location ∈ [objectPlace, "ENUM", fieldPlace] := by cases hu <;> simp
      obtain ⟨hname, hplace⟩ :=
        deprecated_of_builtin dd hbuiltin location hlocation hadmits.location
      cases hu with
      | object => exact absurd hplace (by decide)
      | enumeration => exact absurd hplace (by decide)
      | field => exact .builtin (hadmits.name.symm.trans hname)
  | misplaced hdd' hplace =>
    obtain rfl := hfound hdd'
    cases hu with
    | object => exact absurd (.inr hadmits.location) hplace
    | field => exact absurd (.inr hadmits.location) hplace
    | enumeration => exact .enumeration hdd hadmits.location fun hobject => hplace (.inr hobject)
  | @argument _ k w _ hdd' hplace hkw hfault =>
    obtain rfl := hfound hdd'
    obtain ⟨⟨n, l⟩, hp, hkey, hw⟩ := exists_left_of_forall₂ (forall₂_of_literalEntries hv.arguments) hkw
    obtain rfl : k = .text n := hkey
    cases hfault with
    | unknown ha =>
      obtain ⟨a, ha', hname⟩ := hadmits.known _ hp
      rw [argument?_declaration, Option.map_eq_none_iff] at ha
      exact absurd (beq_iff_eq.mpr hname) (List.find?_eq_none.mp ha a ha')
    | type ha hfits =>
      rw [argument?_declaration] at ha
      obtain ⟨a, hfind, rfl⟩ := Option.map_eq_some_iff.mp ha
      exact .value hdd hfind hp hw hfits (.inl rfl)
    | unwritable ha hfits =>
      rw [argument?_declaration] at ha
      obtain ⟨a, hfind, rfl⟩ := Option.map_eq_some_iff.mp ha
      exact .value hdd hfind hp hw hfits (.inr rfl)
  | missing hdd' hplace hfits hdeclared hlacks =>
    obtain rfl := hfound hdd'
    obtain ⟨a, ha, rfl⟩ := List.mem_map.mp hdeclared
    obtain ⟨inner, htype, hgiven⟩ := left_out_of_lacks hv (nodup_arguments hvalid hdd) hfits ha hlacks
    cases hdefault : a.default with
    | none =>
      obtain ⟨p, hp, hname⟩ := hadmits.complete a ha inner htype hdefault
      exact absurd hname (hgiven p hp)
    | some l => exact .default hdd ha htype hdefault hgiven

/-- A gap is found by the check of the use. -/
theorem usageFault?_of_gap (hvalid : Sdl.valid baseEnvironment defs = true)
    (hcs : List.Forall₂ (fun d c => contribution d = .ok c) defs cs) (hv : v.IsOf u)
    {fault : DirectiveFault} (h : DirectiveGap defs u field location fault) :
    usageFault? (Document.ofContributions cs).withBase (placeOf field) v ≠ none := by
  intro hnone
  have hverdict := usageVerdict (Document.ofContributions cs).withBase (placeOf field) v
  rw [hnone] at hverdict
  cases hverdict with
  | @passed dd' hdd' hplace hfits hgiven =>
    have hfound : ∀ {dd}, baseEnvironment.directive? defs u.name = some dd → dd' = dd.declaration :=
      fun hdd => eq_declaration_of_directive? hvalid hcs hdd (hv.name ▸ hdd')
    cases h with
    | builtin hname =>
      rw [hv.name, hname, directive?_withBase hvalid hcs] at hdd'
      obtain ⟨dd, hdd, -⟩ := Option.map_eq_some_iff.mp hdd'
      have hdeprecated : dd.name = "deprecated" := by simpa using List.find?_some hdd
      rcases List.mem_append.mp (List.mem_of_find?_eq_some hdd) with hdeclared | hshared
      · have hother := (Sdl.declared_of_valid hvalid dd hdeclared).1
        exact hother baseEnvironment.directives[7] (List.getElem_mem _) hdeprecated.symm
      · have hne : ∀ b ∈ sharedDirectives, b.name ≠ "deprecated" := by decide
        exact hne dd hshared hdeprecated
    | enumeration hdd henum hobject =>
      obtain rfl := hfound hdd
      rcases hplace with hempty | hplace
      · exact List.ne_nil_of_mem henum hempty
      · exact hobject hplace
    | @default _ a _ _ _ _ hdd ha htype hdefault hleft =>
      obtain rfl := hfound hdd
      have hlacks := hgiven _ (List.mem_map_of_mem ha)
      have hnone : v.argument? a.name = none := by
        refine Option.eq_none_iff_forall_ne_some.mpr fun w hw => ?_
        obtain ⟨p, hp, hname⟩ := hv.exists_given hw
        exact hleft p hp hname
      rw [lacksArgument, hnone, (describes_ofExpr a.type).nullable.mpr ⟨_, htype⟩] at hlacks
      cases hlacks
    | @value _ a n l w _ _ _ hdd hfind hl hw hfalse hfault =>
      obtain rfl := hfound hdd
      obtain ⟨⟨k, w'⟩, hkw, hkey, hw'⟩ :=
        exists_right_of_forall₂ (forall₂_of_literalEntries hv.arguments) hl
      obtain rfl : k = .text n := hkey
      obtain rfl := Except.ok.inj (hw.symm.trans hw')
      cases hfits _ hkw with
      | passed ha hfit =>
        rw [argument?_declaration, Value.display, hfind] at ha
        obtain rfl := Option.some.inj ha
        exact absurd (hfalse.symm.trans hfit) (by decide)

/-! ## Texts -/

/-- The directive uses of an accepted schema text that the extraction refuses are those of the gaps.  A refusal
for a directive is about a use that the document takes and that falls into a gap, with the fault of this gap.
A use passes its check exactly when it falls into none, and no model is extracted from a text with a use that
falls into one. -/
theorem schemaText_directives (h : Document.ofSchemaText text = .ok d) :
    ∃ defs, readDefinitions text = .ok defs ∧
      (∀ name site fault, extract d = .error (.directive name site fault) →
        ∃ td location u, .type td ∈ defs ∧ td.name = site.owner ∧ td.Uses site.field location u ∧
          u.name = name ∧ DirectiveGap defs u site.field location fault) ∧
      ∀ td, .type td ∈ defs → ∀ field location u, td.Uses field location u →
        (∀ v : DirectiveUsage, v.IsOf u → (usageFault? d.withBase (placeOf field) v = none ↔
          ∀ fault, ¬ DirectiveGap defs u field location fault)) ∧
        ∀ fault, DirectiveGap defs u field location fault → ∀ m, extract d ≠ .ok m := by
  obtain ⟨defs, cs, hdefs, hcs, rfl⟩ := ofSchemaText_ok h
  obtain ⟨-, hvalid⟩ := readDefinitions_ok hdefs
  refine ⟨defs, hdefs, ?_, ?_⟩
  · intro name site fault hfault
    obtain ⟨t, ht, v, hv, howner, hname, hfound⟩ := (refuses_extract _ _ hfault).checked _ _ _ rfl
    obtain ⟨td, htd, hcontributes⟩ := exists_definition_of_mem_types hcs ht
    obtain ⟨location, u, hu, hvu⟩ := exists_use_of_uses hcontributes hv
    refine ⟨td, location, u, htd, ?_, hu, hvu.name.symm.trans hname, ?_⟩
    · exact (name_of_contributes hcontributes).symm.trans howner.symm
    · exact gap_of_usageFault? hvalid hcs htd hu hvu hfound
  · intro td htd field location u hu
    refine ⟨fun v hv => ⟨?_, ?_⟩, ?_⟩
    · exact fun hnone fault hgap => usageFault?_of_gap hvalid hcs hv hgap hnone
    · intro hgaps
      refine Option.eq_none_iff_forall_ne_some.mpr fun fault hfault => ?_
      exact hgaps fault (gap_of_usageFault? hvalid hcs htd hu hv hfault)
    · intro fault hgap m hm
      obtain ⟨t, ht, v, hv, hvu⟩ := exists_mem_types_of_use hcs htd hu
      obtain ⟨parts, hparts, -⟩ := bind_eq_ok.mp hm
      have hchecked := checked_of_ofDocument (declarations_of_parts hparts) t ht
      exact usageFault?_of_gap hvalid hcs hvu hgap (checkDirectives_ok hchecked hv)

/-- A schema text with an entity and an enum, and a directive on the enum that may stand at some places. -/
def notedText (places : String) : String :=
  "directive @note on " ++ places ++ "\nenum Mood @note \x7b CALM \x7d\ntype A @entity \x7b id: ID! \x7d"

/-- A directive that may stand on both object and enum types is checked alike. -/
theorem schemaText_directives_bothPlaces :
    ∃ defs, readDefinitions (notedText "OBJECT | ENUM") = .ok defs ∧
      ∀ td, .type td ∈ defs → ∀ field location u, td.Uses field location u →
        ∀ fault, ¬ DirectiveGap defs u field location fault := by
  have hextracted : ((Document.ofSchemaText (notedText "OBJECT | ENUM")).toOption.bind fun d =>
      (extract d).toOption).isSome = true := by decide +kernel
  obtain ⟨m, hm⟩ := Option.isSome_iff_exists.mp hextracted
  obtain ⟨d, hd, hm⟩ := Option.bind_eq_some_iff.mp hm
  obtain ⟨defs, hdefs, -, h⟩ := schemaText_directives (eq_ok_of_toOption hd)
  refine ⟨defs, hdefs, fun td htd field location u hu fault hgap => ?_⟩
  exact (h td htd field location u hu).2 fault hgap m (eq_ok_of_toOption hm)

/-- A directive that may stand on enum types alone is allowed by the rules and refused later. -/
theorem enumDirective_misplaced :
    ∃ d, Document.ofSchemaText (notedText "ENUM") = .ok d ∧
      extract d = .error (.directive "note" ⟨"Mood", none⟩ .misplaced) := by
  have hfault : ((Document.ofSchemaText (notedText "ENUM")).toOption.bind fun d =>
      faultOf? (extract d)) = some (.directive "note" ⟨"Mood", none⟩ .misplaced) := by decide +kernel
  obtain ⟨d, hd, hfault⟩ := Option.bind_eq_some_iff.mp hfault
  exact ⟨d, eq_ok_of_toOption hd, eq_error_of_faultOf? hfault⟩

end SchemaReconcile
