import SchemaReconcile.Proofs.Document.Yaml
import SchemaReconcile.Proofs.Sdl.Fields

/-!
# Type references in both languages

A field that is declared with a type expression in a schema text, and a field of a YAML text whose type is a string
that writes the same expression, get the same reference (`typeRefs_alike`).  It has what the expression says at its
two outer levels and the name inside (`TypeRef.Describes`); what stands between these levels and the name is lost.

Both ways start from tokens.  In the schema text the tokens of the expression stand behind the colon of the field and
end where no further mark belongs to them; in the YAML text they are those of a string of its own, up to its end.
-/

namespace SchemaReconcile

/-! ## Fields of schema texts -/

/-- The definition of a field of a schema text, by the places of the type definition among those that a document
takes and of the field in it. -/
def schemaField? (text : String) (i j : ℕ) : Option Sdl.FieldDefinition := do
  let defs ← (Sdl.readDocument text).toOption
  (← (defs.filterMap Sdl.Definition.takenType?)[i]?).body.outputFields[j]?

/-- A field of an accepted schema text stands in its tokens, and has its name and the reference of its type. -/
theorem field_of_schemaField? {text : String} {d : Document} {i j : ℕ} {f : Sdl.FieldDefinition}
    (h : Document.ofSchemaText text = .ok d) (hf : schemaField? text i j = some f) :
    f.WrittenIn (Sdl.tokens text) ∧ ∃ g, d.field? i j = some g ∧ g.name = f.name ∧ g.type = .ofExpr f.type := by
  obtain ⟨defs, cs, hdefs, hcs, rfl⟩ := ofSchemaText_ok h
  obtain ⟨defs', hread, hf⟩ := Option.bind_eq_some_iff.mp hf
  have hread' : Sdl.readDocument text = .ok defs := (readDefinitions_ok hdefs).1
  obtain rfl : defs' = defs := Except.ok.inj ((eq_ok_of_toOption hread).symm.trans hread')
  obtain ⟨td, htd, hf⟩ := Option.bind_eq_some_iff.mp hf
  constructor
  · obtain ⟨def', hdef, htaken⟩ := List.mem_filterMap.mp (List.mem_of_getElem? htd)
    have hmem : .type td ∈ defs' := by
      cases def' with
      | type td' =>
        obtain ⟨-, heq⟩ := Option.ite_none_right_eq_some.mp htaken
        rwa [← Option.some.inj heq]
      | _ => cases htaken
    exact Sdl.writtenIn_of_readDocument hread' hmem (List.mem_of_getElem? hf)
  · obtain ⟨t, ht, hcontributes⟩ := exists_getElem?_of_forall₂ (forall₂_types hcs) htd
    cases hcontributes with
    | enumeration hbody =>
      rw [hbody] at hf
      cases hf
    | object hbody hdirectives hfields =>
      rw [hbody] at hf
      obtain ⟨g, hg, hdeclared⟩ := exists_getElem?_of_forall₂ hfields hf
      exact ⟨g, Option.bind_eq_some_iff.mpr ⟨_, ht, hg⟩, (fieldDeclaration_ok hdeclared).1,
        type_of_fieldDeclaration hdeclared⟩

/-! ## Both languages -/

/-- A field that is declared with a type expression in a schema text, and a field of a YAML text whose type is a
string that writes this expression, have the same reference, and it describes the expression.  There is such a string
for each expression that a field is declared with. -/
theorem typeRefs_alike {schema yaml t : String} {d d' : Document} {i j k l : ℕ} {f : Sdl.FieldDefinition}
    (hschema : Document.ofSchemaText schema = .ok d) (hyaml : Document.ofYamlText yaml = .ok d')
    (hf : schemaField? schema i j = some f) (ht : yamlType? yaml k l = some t) (hwrites : Sdl.Writes t f.type) :
    f.WrittenIn (Sdl.tokens schema) ∧ Sdl.Writes f.type.text f.type ∧
      ∃ g g', d.field? i j = some g ∧ d'.field? k l = some g' ∧ g.name = f.name ∧ g.type = g'.type ∧
        g.type.Describes f.type := by
  obtain ⟨hwritten, g, hg, hname, htype⟩ := field_of_schemaField? hschema hf
  obtain ⟨g', hg', htype'⟩ := field_of_yamlType? hyaml ht (Sdl.readTypeExpr_eq_ok_iff.mpr hwrites)
  exact ⟨hwritten, Sdl.writes_text hwritten.proper, g, g', hg, hg', hname, htype.trans htype'.symm,
    htype ▸ describes_ofExpr f.type⟩

/-- A schema text with a field that is a list of lists. -/
def gridSchema : String := "type A @entity \x7b id: ID! grid(size: Int): [ [String]! ]! \x7d"

/-- A YAML text with this field. -/
def gridYaml : String :=
  "types:\n  A:\n    kind: object\n    fields:\n      - name: grid\n        type: \"[[String]!]!\"\n"

/-- A list of lists that is written with blanks in one text and without them in the other. -/
theorem typeRefs_alike_grid :
    ∃ d d' g g', Document.ofSchemaText gridSchema = .ok d ∧ Document.ofYamlText gridYaml = .ok d' ∧
      d.field? 0 1 = some g ∧ d'.field? 0 0 = some g' ∧ g.type = g'.type ∧
      g.type.Describes (.nonNull (.list (.nonNull (.list (.named "String"))))) := by
  have hschema : (Document.ofSchemaText gridSchema).toOption.isSome = true := by decide +kernel
  have hyaml : (Document.ofYamlText gridYaml).toOption.isSome = true := by decide +kernel
  obtain ⟨d, hd⟩ := Option.isSome_iff_exists.mp hschema
  obtain ⟨d', hd'⟩ := Option.isSome_iff_exists.mp hyaml
  have hfield : (schemaField? gridSchema 0 1).map (·.type) =
      some (.nonNull (.list (.nonNull (.list (.named "String"))))) := by decide +kernel
  obtain ⟨f, hf, htype⟩ := Option.map_eq_some_iff.mp hfield
  have ht : yamlType? gridYaml 0 0 = some "[[String]!]!" := by decide +kernel
  have hwrites : Sdl.Writes "[[String]!]!" f.type := by
    rw [htype]
    exact Sdl.writes_text (e := .nonNull (.list (.nonNull (.list (.named "String"))))) ⟨⟨rfl, nofun⟩, nofun⟩
  obtain ⟨-, -, g, g', hg, hg', -, hsame, hdescribes⟩ :=
    typeRefs_alike (eq_ok_of_toOption hd) (eq_ok_of_toOption hd') hf ht hwrites
  exact ⟨d, d', g, g', eq_ok_of_toOption hd, eq_ok_of_toOption hd', hg, hg', hsame, htype ▸ hdescribes⟩

end SchemaReconcile
