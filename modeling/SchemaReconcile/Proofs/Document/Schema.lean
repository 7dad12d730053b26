import SchemaReconcile.Document.Schema
import SchemaReconcile.Proofs.Extract.Directives

/-!
# Documents of schema texts

What the document of an accepted schema text takes over from its definitions.  The definitions keep the rules
of schema documents (`readDefinitions_ok`) and give one contribution each (`ofSchemaText_ok`), so the directive
declarations of the document are those of the definitions, and its directive uses are those on object types,
on enum types and on the fields of object types (`Sdl.TypeDefinition.Uses`), in both directions
(`exists_use_of_uses`, `exists_uses_of_use`).  The types of the document are those of the definitions that it takes,
in their order (`forall₂_types`).

A type expression is kept as a reference, which says of it what `TypeRef.Describes` lists and no more.
-/

namespace SchemaReconcile

/-! ## Type references -/

/-- A type expression below an outermost mark. -/
def Sdl.TypeExpr.unmarked : Sdl.TypeExpr → Sdl.TypeExpr
  | .nonNull inner => inner
  | e => e

/-- A reference describes a type expression: it has the name inside, it is not nullable exactly when the whole
expression is marked, it is an array exactly when there is a list below this mark, and its items are not nullable
exactly when what directly stands in this list is marked. -/
structure TypeRef.Describes (r : TypeRef) (e : Sdl.TypeExpr) : Prop where
  name : r.name = e.innermost
  nullable : r.nullable = false ↔ ∃ inner, e = .nonNull inner
  isArray : r.isArray = true ↔ ∃ item, e.unmarked = .list item
  itemNullable : r.itemNullable = false ↔ ∃ item, e.unmarked = .list (.nonNull item)

/-- The reference that an expression makes describes it. -/
theorem describes_ofExpr (e : Sdl.TypeExpr) : (TypeRef.ofExpr e).Describes e := by
  cases e with
  | named s => constructor <;> simp [TypeRef.ofExpr, Sdl.TypeExpr.innermost, Sdl.TypeExpr.unmarked]
  | list item =>
    cases item <;> constructor <;> simp [TypeRef.ofExpr, Sdl.TypeExpr.innermost, Sdl.TypeExpr.unmarked]
  | nonNull inner =>
    cases inner with
    | list item => cases item <;> constructor <;> simp [TypeRef.ofExpr, Sdl.TypeExpr.innermost, Sdl.TypeExpr.unmarked]
    | _ => constructor <;> simp [TypeRef.ofExpr, Sdl.TypeExpr.innermost, Sdl.TypeExpr.unmarked]

/-! ## Definitions -/

/-- Definitions are read from a text that can be read and keeps the rules. -/
theorem readDefinitions_ok {text : String} {defs : List Sdl.Definition}
    (h : readDefinitions text = .ok defs) :
    Sdl.readDocument text = .ok defs ∧ Sdl.valid baseEnvironment defs = true := by
  unfold readDefinitions at h
  split at h
  · cases h
  · next defs' hread =>
    split at h
    · next hvalid =>
      obtain rfl := Except.ok.inj h
      exact ⟨hread, hvalid⟩
    · cases h

/-! ## Contributions -/

variable {text : String} {defs : List Sdl.Definition} {cs : List Contribution} {d : Document}

/-- Contributions without a fault are one of each definition. -/
theorem forall₂_of_contributions (h : contributions defs = (cs, none)) :
    List.Forall₂ (fun d c => contribution d = .ok c) defs cs := by
  induction defs generalizing cs with
  | nil =>
    obtain rfl := (Prod.mk.inj h).1
    exact .nil
  | cons d rest ih =>
    unfold contributions at h
    split at h
    · cases h
    · next c hc =>
      obtain ⟨rfl, hnone⟩ := Prod.mk.inj h
      exact .cons hc (ih (Prod.ext rfl hnone))

/-- The document of an accepted schema text. -/
theorem ofSchemaText_ok (h : Document.ofSchemaText text = .ok d) :
    ∃ defs cs, readDefinitions text = .ok defs ∧
      List.Forall₂ (fun d c => contribution d = .ok c) defs cs ∧ d = .ofContributions cs := by
  obtain ⟨defs, hdefs, h⟩ := bind_eq_ok.mp h
  split at h
  · next cs hcs => exact ⟨defs, cs, hdefs, forall₂_of_contributions hcs, (Except.ok.inj h).symm⟩
  · cases h

/-- What a type definition contributes. -/
inductive Contributes (td : Sdl.TypeDefinition) : Contribution → Prop where
  | scalar (hbody : td.body = .scalar) : Contributes td (.scalar td.name)
  | enumeration {values : List Sdl.EnumValue} {directives : List DirectiveUsage}
      (hbody : td.body = .enumeration values) (hdirectives : usages td.directives = .ok directives) :
      Contributes td (.type { kind := .enumeration, name := td.name, description := td.description,
                              directives, values := values.map (·.name) })
  | object {interfaces : List String} {fields : List Sdl.FieldDefinition}
      {directives : List DirectiveUsage} {declared : List FieldDeclaration}
      (hbody : td.body = .object interfaces fields) (hdirectives : usages td.directives = .ok directives)
      (hfields : List.Forall₂ (fun f g => fieldDeclaration f = .ok g) fields declared) :
      Contributes td (.type { kind := .object, name := td.name, description := td.description,
                              directives, fields := declared })
  | skipped {kind : String} (hbody : td.body.kind ∉ [.scalar, .enumeration, .object]) :
      Contributes td (.skipped kind)

/-- The contribution of a type definition, case by case. -/
theorem contributes_of_eq_ok {td : Sdl.TypeDefinition} {c : Contribution}
    (h : typeContribution td = .ok c) : Contributes td c := by
  unfold typeContribution at h
  split at h
  · next hbody => exact Except.ok.inj h ▸ .scalar hbody
  · next values hbody =>
    obtain ⟨directives, hdirectives, h⟩ := bind_eq_ok.mp h
    exact Except.ok.inj h ▸ .enumeration hbody hdirectives
  · next interfaces fields hbody =>
    obtain ⟨directives, hdirectives, h⟩ := bind_eq_ok.mp h
    obtain ⟨declared, hdeclared, h⟩ := bind_eq_ok.mp h
    exact Except.ok.inj h ▸ .object hbody hdirectives (mapM_eq_ok_iff.mp hdeclared)
  · next hbody => exact Except.ok.inj h ▸ .skipped (by simp [hbody, Sdl.TypeBody.kind])
  · next hbody => exact Except.ok.inj h ▸ .skipped (by simp [hbody, Sdl.TypeBody.kind])
  · next hbody => exact Except.ok.inj h ▸ .skipped (by simp [hbody, Sdl.TypeBody.kind])

/-! ## Directive declarations -/

/-- The declaration of a directive definition. -/
def Sdl.DirectiveDefinition.declaration (dd : Sdl.DirectiveDefinition) : DirectiveDeclaration :=
  ⟨dd.name, dd.arguments.map fun a => ⟨a.name, .ofExpr a.type⟩, dd.locations⟩

/-- The directive declarations of a document are those of the definitions. -/
theorem directives_ofContributions (h : List.Forall₂ (fun d c => contribution d = .ok c) defs cs) :
    (Document.ofContributions cs).directives =
      (Sdl.declaredDirectives defs).map Sdl.DirectiveDefinition.declaration := by
  rw [Sdl.declaredDirectives, List.map_filterMap]
  refine (filterMap_eq_filterMap_of_forall₂ h fun d c hc => ?_).symm
  cases d with
  | type t =>
    cases contributes_of_eq_ok hc with
    | scalar => rfl
    | enumeration => rfl
    | object => rfl
    | skipped => rfl
  | typeExtension t => cases hc
  | directive dd => exact Except.ok.inj hc ▸ rfl
  | schema uses operations => exact Except.ok.inj hc ▸ rfl
  | schemaExtension uses operations => exact Except.ok.inj hc ▸ rfl
  | operation kind declared uses selections => exact Except.ok.inj hc ▸ rfl
  | fragment onType uses selections => exact Except.ok.inj hc ▸ rfl

/-! ## Directive uses -/

/-- A directive use that a document takes from a type definition, with the location where it is written: on an
object type, on an enum type, or on the field of a name of an object type. -/
inductive Sdl.TypeDefinition.Uses (td : Sdl.TypeDefinition) :
    Option String → String → Sdl.DirectiveUse → Prop where
  | object {interfaces : List String} {fields : List Sdl.FieldDefinition} {u : Sdl.DirectiveUse}
      (hbody : td.body = .object interfaces fields) (hu : u ∈ td.directives) : td.Uses none objectPlace u
  | enumeration {values : List Sdl.EnumValue} {u : Sdl.DirectiveUse}
      (hbody : td.body = .enumeration values) (hu : u ∈ td.directives) : td.Uses none "ENUM" u
  | field {interfaces : List String} {fields : List Sdl.FieldDefinition} {f : Sdl.FieldDefinition}
      {u : Sdl.DirectiveUse} (hbody : td.body = .object interfaces fields) (hf : f ∈ fields)
      (hu : u ∈ f.directives) : td.Uses (some f.name) fieldPlace u

/-- A directive use of a document that is a use of a definition, with the values of its arguments. -/
structure DirectiveUsage.IsOf (v : DirectiveUsage) (u : Sdl.DirectiveUse) : Prop where
  name : v.name = u.name
  arguments : literalEntries u.arguments = .ok v.arguments

/-- The usages of directive uses are these uses in their order. -/
theorem forall₂_of_usages {uses : List Sdl.DirectiveUse} {vs : List DirectiveUsage}
    (h : usages uses = .ok vs) : List.Forall₂ (fun u v => v.IsOf u) uses vs := by
  refine (mapM_eq_ok_iff.mp h).imp fun u v huv => ?_
  split at huv
  · next arguments harguments => exact Except.ok.inj huv ▸ ⟨rfl, harguments⟩
  · cases huv

/-- A field is declared with its name and directive uses. -/
theorem fieldDeclaration_ok {f : Sdl.FieldDefinition} {g : FieldDeclaration}
    (h : fieldDeclaration f = .ok g) : g.name = f.name ∧ usages f.directives = .ok g.directives := by
  obtain ⟨directives, hdirectives, h⟩ := bind_eq_ok.mp h
  exact Except.ok.inj h ▸ ⟨rfl, hdirectives⟩

/-- A field is declared with the reference of its type. -/
theorem type_of_fieldDeclaration {f : Sdl.FieldDefinition} {g : FieldDeclaration}
    (h : fieldDeclaration f = .ok g) : g.type = .ofExpr f.type := by
  obtain ⟨directives, -, h⟩ := bind_eq_ok.mp h
  exact Except.ok.inj h ▸ rfl

section Taken

variable {td : Sdl.TypeDefinition} {t : TypeDeclaration} {field : Option String}

/-- A declaration has the name of its definition. -/
theorem name_of_contributes (h : Contributes td (.type t)) : t.name = td.name := by
  cases h with
  | enumeration => rfl
  | object => rfl

/-- Each use of a declaration is one of its definition. -/
theorem exists_use_of_uses (h : Contributes td (.type t)) {v : DirectiveUsage} (hv : t.Uses field v) :
    ∃ location u, td.Uses field location u ∧ v.IsOf u := by
  cases h with
  | enumeration hbody hdirectives =>
    cases hv with
    | own hv =>
      obtain ⟨u, hu, hvu⟩ := exists_left_of_forall₂ (forall₂_of_usages hdirectives) hv
      exact ⟨_, u, .enumeration hbody hu, hvu⟩
    | field hf hv => cases hf
  | object hbody hdirectives hfields =>
    cases hv with
    | own hv =>
      obtain ⟨u, hu, hvu⟩ := exists_left_of_forall₂ (forall₂_of_usages hdirectives) hv
      exact ⟨_, u, .object hbody hu, hvu⟩
    | field hg hv =>
      obtain ⟨f, hf, hfg⟩ := exists_left_of_forall₂ hfields hg
      obtain ⟨hname, husages⟩ := fieldDeclaration_ok hfg
      obtain ⟨u, hu, hvu⟩ := exists_left_of_forall₂ (forall₂_of_usages husages) hv
      refine ⟨fieldPlace, u, ?_, hvu⟩
      rw [hname]
      exact .field hbody hf hu

/-- Each use of a definition that a document takes is one of its declaration. -/
theorem exists_uses_of_use {location : String} {c : Contribution} (h : Contributes td c)
    {u : Sdl.DirectiveUse} (hu : td.Uses field location u) :
    ∃ t, c = .type t ∧ ∃ v, t.Uses field v ∧ v.IsOf u := by
  cases hu with
  | object hbody hu =>
    cases h with
    | object hbody' hdirectives hfields =>
      obtain ⟨v, hv, hvu⟩ := exists_right_of_forall₂ (forall₂_of_usages hdirectives) hu
      exact ⟨_, rfl, v, .own hv, hvu⟩
    | scalar hbody' => rw [hbody] at hbody'; cases hbody'
    | enumeration hbody' => rw [hbody] at hbody'; cases hbody'
    | skipped hkind => simp [hbody, Sdl.TypeBody.kind] at hkind
  | enumeration hbody hu =>
    cases h with
    | enumeration hbody' hdirectives =>
      obtain ⟨v, hv, hvu⟩ := exists_right_of_forall₂ (forall₂_of_usages hdirectives) hu
      exact ⟨_, rfl, v, .own hv, hvu⟩
    | scalar hbody' => rw [hbody] at hbody'; cases hbody'
    | object hbody' => rw [hbody] at hbody'; cases hbody'
    | skipped hkind => simp [hbody, Sdl.TypeBody.kind] at hkind
  | field hbody hf hu =>
    cases h with
    | object hbody' hdirectives hfields =>
      rw [hbody] at hbody'
      obtain ⟨-, rfl⟩ := Sdl.TypeBody.object.inj hbody'
      obtain ⟨g, hg, hfg⟩ := exists_right_of_forall₂ hfields hf
      obtain ⟨hname, husages⟩ := fieldDeclaration_ok hfg
      obtain ⟨v, hv, hvu⟩ := exists_right_of_forall₂ (forall₂_of_usages husages) hu
      refine ⟨_, rfl, v, ?_, hvu⟩
      rw [← hname]
      exact .field hg hv
    | scalar hbody' => rw [hbody] at hbody'; cases hbody'
    | enumeration hbody' => rw [hbody] at hbody'; cases hbody'
    | skipped hkind => simp [hbody, Sdl.TypeBody.kind] at hkind

end Taken

/-- Each type of a document is declared by a type definition. -/
theorem exists_definition_of_mem_types (h : List.Forall₂ (fun d c => contribution d = .ok c) defs cs)
    {t : TypeDeclaration} (ht : t ∈ (Document.ofContributions cs).types) :
    ∃ td, .type td ∈ defs ∧ Contributes td (.type t) := by
  obtain ⟨c, hc, hct⟩ := List.mem_filterMap.mp ht
  obtain ⟨def', hdef, hcontribution⟩ := exists_left_of_forall₂ h hc
  cases c with
  | type t' =>
    obtain rfl := Option.some.inj hct
    cases def' with
    | type td => exact ⟨td, hdef, contributes_of_eq_ok hcontribution⟩
    | _ => cases hcontribution
  | _ => cases hct

/-- The type definition that a document takes a type from: one of an object type or of an enum type. -/
def Sdl.Definition.takenType? : Sdl.Definition → Option Sdl.TypeDefinition
  | .type td => if td.body.kind ∈ [.object, .enumeration] then some td else none
  | _ => none

/-- The types of a document are those that its definitions contribute, in their order. -/
theorem forall₂_types (h : List.Forall₂ (fun d c => contribution d = .ok c) defs cs) :
    List.Forall₂ (fun td t => Contributes td (.type t)) (defs.filterMap Sdl.Definition.takenType?)
      (Document.ofContributions cs).types := by
  refine List.rel_filterMap (fun d c hc => ?_) h
  cases d with
  | type td =>
    have hcontributes : Contributes td c := contributes_of_eq_ok hc
    rw [Sdl.Definition.takenType?]
    cases hcontributes with
    | scalar hbody =>
      rw [if_neg (by simp [hbody, Sdl.TypeBody.kind])]
      exact .none
    | enumeration hbody hdirectives =>
      rw [if_pos (by simp [hbody, Sdl.TypeBody.kind])]
      exact .some (.enumeration hbody hdirectives)
    | object hbody hdirectives hfields =>
      rw [if_pos (by simp [hbody, Sdl.TypeBody.kind])]
      exact .some (.object hbody hdirectives hfields)
    | skipped hkind =>
      rw [if_neg fun htaken => hkind (List.mem_cons_of_mem _ (by simpa [or_comm] using htaken))]
      exact .none
  | typeExtension td => cases hc
  | directive dd => exact Except.ok.inj hc ▸ .none
  | schema uses operations => exact Except.ok.inj hc ▸ .none
  | schemaExtension uses operations => exact Except.ok.inj hc ▸ .none
  | operation kind declared uses selections => exact Except.ok.inj hc ▸ .none
  | fragment onType uses selections => exact Except.ok.inj hc ▸ .none

/-- A definition whose uses a document takes is declared in it. -/
theorem exists_mem_types_of_use (h : List.Forall₂ (fun d c => contribution d = .ok c) defs cs)
    {td : Sdl.TypeDefinition} (htd : .type td ∈ defs) {field : Option String} {location : String}
    {u : Sdl.DirectiveUse} (hu : td.Uses field location u) :
    ∃ t ∈ (Document.ofContributions cs).types, ∃ v, t.Uses field v ∧ v.IsOf u := by
  obtain ⟨c, hc, hcontribution⟩ := exists_right_of_forall₂ h htd
  obtain ⟨t, rfl, v, hv, hvu⟩ := exists_uses_of_use (contributes_of_eq_ok hcontribution) hu
  exact ⟨t, List.mem_filterMap.mpr ⟨_, hc, rfl⟩, v, hv, hvu⟩

end SchemaReconcile
