import SchemaReconcile.Proofs.Document.Refusals
import SchemaReconcile.Proofs.Shape.Checked
import SchemaReconcile.Proofs.Yaml.Mappings

/-!
# Documents of YAML texts

What the document of an accepted YAML text takes over from the value of the text, at each place of it.  The types of
fields that are written as expressions are expanded (`declaration_of_valueWith`, `entry?_expandAt_type`), types
that are given as a mapping become a list (`record_of_listTypes`), and the records are read (`fields_of_record`,
`type_of_record`).  None of these steps moves a declaration or a field, and none loses an entry of a declaration:
when its entries are put behind its name, no other entry has the same text as its key.

Expanding works on the objects of which the text is a value.  A mapping that stands in several places is expanded in
all of them, also outside the fields.  So the way to a field is stated for objects (`WritesType`), and what is
expanded besides this field is shown to leave alone what leads to it (`getElem?_expandAt`,
`entry?_expandAt_mapEntries`).
-/

namespace SchemaReconcile

open Shape
open Shape.Checked (seq_eq_ok)

open Yaml (Object)

variable {v w types : Value} {entries own record : List (Value × Value)} {items : List Value}
  {places : List ℕ} {place k l : ℕ}

/-! ## Objects of values -/

/-- The object for a text key of a mapping. -/
theorem exists_object_of_entry? {key : String} {given : List (Value × Object)}
    (h : Value.entry? (.text key) (Value.mapEntries Object.plain given) = some v) :
    ∃ o, Value.entry? (.text key) given = some o ∧ o.plain = v :=
  Option.map_eq_some_iff.mp ((Value.entry?_mapEntries _).symm.trans h)

/-- The object of a mapping at a place of a list. -/
theorem exists_mapping_of_getElem? {objects : List Object}
    (h : (objects.map Object.plain)[k]? = some (.dict own)) :
    ∃ place given, objects[k]? = some (.mapping place given) ∧ own = Value.mapEntries Object.plain given := by
  obtain ⟨o, ho, hplain⟩ := Option.map_eq_some_iff.mp ((List.getElem?_map ..).symm.trans h)
  obtain ⟨place, given, rfl, heq⟩ := Object.plain_eq_dict_iff.mp hplain
  exact ⟨place, given, ho, heq⟩

/-- A type is written as an expression in the field at one place of a document: the objects on the way to it, from
the types by the declaration and its fields. -/
inductive WritesType (given : List (Value × Object)) (k l place : ℕ) (t : String) : Prop
  | intro {types : Object} {declarations listed : List Object} {own field : List (Value × Object)} {root : ℕ}
      (htypes : Value.entry? (.text "types") given = some types) (hgone : declarationsOf types = .ok declarations)
      (hown : declarations[k]? = some (.mapping root own))
      (hlisted : Value.entry? (.text "fields") own = some (.list listed))
      (hfield : listed[l]? = some (.mapping place field))
      (htype : Value.entry? (.text "type") field = some (.scalar ⟨.text t, rfl⟩))

/-- The fields of an accepted text are expanded at their places, and the document is read from what the value is
then. -/
theorem exists_places {text : String} {d : Document} (h : Document.ofYamlText text = .ok d)
    (hload : Yaml.load text = .ok (.dict entries)) :
    ∃ place given places, Yaml.loadObject text = .ok (.mapping place given) ∧
      entries = Value.mapEntries Object.plain given ∧ fieldPlaces given = .ok places ∧
      Document.ofValue (.dict (expandAt places place
        (Value.mapEntries (Object.valueWith (expandAt places)) given))) = .ok d := by
  obtain ⟨object, hobject, hplain⟩ := map_eq_ok.mp hload
  obtain ⟨place, given, rfl, rfl⟩ := Object.plain_eq_dict_iff.mp hplain
  obtain ⟨object, hread, h⟩ := bind_eq_ok.mp h
  obtain rfl := Except.ok.inj (hobject.symm.trans (mapError_eq_ok.mp hread))
  obtain ⟨root, hroot, h⟩ := bind_eq_ok.mp h
  obtain rfl := Except.ok.inj hroot
  obtain ⟨places, hplaces, h⟩ := bind_eq_ok.mp h
  refine ⟨place, given, places, hobject, rfl, hplaces, ?_⟩
  rw [← Object.valueWith_mapping]
  exact mapError_eq_ok.mp h

/-! ## Expanding -/

/-- The declarations of a document with places are gone through. -/
theorem exists_declarationsOf {given : List (Value × Object)} {types : Object} (h : fieldPlaces given = .ok places)
    (htypes : Value.entry? (.text "types") given = some types) :
    ∃ declarations, declarationsOf types = .ok declarations := by
  simp only [fieldPlaces, htypes] at h
  obtain ⟨declarations, hgone, -⟩ := bind_eq_ok.mp h
  exact ⟨declarations, hgone⟩

/-- The place of a field whose type is written as an expression is among those of its declaration. -/
theorem mem_placesOfDeclaration {given field : List (Value × Object)} {listed : List Object} {t : String}
    {e : Sdl.TypeExpr} (h : placesOfDeclaration (.mapping k given) = .ok places)
    (hlisted : Value.entry? (.text "fields") given = some (.list listed)) (hfield : .mapping place field ∈ listed)
    (htype : Value.entry? (.text "type") field = some (.scalar ⟨.text t, rfl⟩))
    (he : Sdl.readTypeExpr t = .ok e) : place ∈ places := by
  have hplace : placeOfField (.mapping place field) = .ok [place] := by
    simp only [placeOfField, htype, he]
  simp only [placesOfDeclaration, hlisted] at h
  obtain ⟨gone, hgone, h⟩ := bind_eq_ok.mp h
  obtain rfl := Except.ok.inj hgone
  obtain ⟨collected, hcollected, h⟩ := bind_eq_ok.mp h
  obtain rfl := Except.ok.inj h
  exact mem_flatten_of_mapM hcollected hfield hplace (List.mem_singleton_self place)

/-- The place of a field whose type is written as an expression is among those of the document. -/
theorem WritesType.mem_fieldPlaces {given : List (Value × Object)} {t : String} {e : Sdl.TypeExpr}
    (hwrites : WritesType given k l place t) (h : fieldPlaces given = .ok places)
    (he : Sdl.readTypeExpr t = .ok e) : place ∈ places := by
  obtain ⟨htypes, hgone, hown, hlisted, hfield, htype⟩ := hwrites
  simp only [fieldPlaces, htypes, hgone] at h
  obtain ⟨gone, hgone, h⟩ := bind_eq_ok.mp h
  obtain rfl := Except.ok.inj hgone
  obtain ⟨collected, hcollected, h⟩ := bind_eq_ok.mp h
  obtain rfl := Except.ok.inj h
  have hmem := List.mem_of_getElem? hown
  obtain ⟨found, -, hfound⟩ := exists_right_of_forall₂ (mapM_eq_ok_iff.mp hcollected) hmem
  exact mem_flatten_of_mapM hcollected hmem hfound
    (mem_placesOfDeclaration hfound hlisted (List.mem_of_getElem? hfield) htype he)

/-- Expanding leaves what is not a text where it stands. -/
theorem getElem?_expandAt {p : Value × Value} (hp : own[k]? = some p) (htext : ∀ s, p.2 ≠ .text s) :
    (expandAt places place own)[k]? = some p := by
  rcases expandAt_cases places place own with heq | ⟨s, e, htype, -, heq⟩
  · rw [heq]
    exact hp
  · rw [heq]
    refine Value.getElem?_putEntry hp fun hentry => htext s ?_
    exact (Option.some.inj (htype.symm.trans hentry)).symm

/-- Expanding leaves text keys apart. -/
theorem textsApart_expandAt (h : Value.TextsApart own) : Value.TextsApart (expandAt places place own) := by
  rcases expandAt_cases places place own with heq | ⟨s, e, -, -, heq⟩
  · rwa [heq]
  · rw [heq]
    exact Value.textsApart_putEntry h

/-- The value of a key other than the type after types are expanded. -/
theorem entry?_expandAt_mapEntries {key : String} {given : List (Value × Object)} {o : Object} (hkey : key ≠ "type")
    (h : Value.entry? (.text key) given = some o) :
    Value.entry? (.text key)
        (expandAt places place (Value.mapEntries (Object.valueWith (expandAt places)) given)) =
      some (o.valueWith (expandAt places)) := by
  rw [entry?_expandAt hkey, Value.entry?_mapEntries, h, Option.map_some]

/-- At the place of a field, a type that is written as an expression becomes the record of its reference. -/
theorem entry?_expandAt_type {t : String} {e : Sdl.TypeExpr} (hplace : place ∈ places)
    (htype : Value.entry? (.text "type") own = some (.text t)) (he : Sdl.readTypeExpr t = .ok e) :
    Value.entry? (.text "type") (expandAt places place own) = some (TypeRef.ofExpr e).toValue := by
  have hrecord : typeRecord? (.text t) = some (TypeRef.ofExpr e).toValue := by
    rw [typeRecord?, he]
    rfl
  simp only [expandAt, htype, Option.bind_some, hrecord, List.contains_iff_mem.mpr hplace, if_true]
  exact Value.entry?_putEntry _ _ _

/-- A declaration stands where it did after types are expanded. -/
theorem declaration_of_valueWith {types : Object} {declarations : List Object} {given : List (Value × Object)}
    (hgone : declarationsOf types = .ok declarations) (hown : declarations[k]? = some (.mapping place given)) :
    (declarationsIn (types.valueWith (expandAt places)))[k]? =
      some (.dict (expandAt places place (Value.mapEntries (Object.valueWith (expandAt places)) given))) := by
  rw [← Object.valueWith_mapping]
  cases types with
  | scalar s =>
    obtain rfl := eq_nil_of_declarationsOf hgone
    cases hown
  | set items =>
    obtain rfl := Except.ok.inj hgone
    cases hown
  | list items =>
    obtain rfl := Except.ok.inj hgone
    rw [Object.valueWith_list]
    exact (List.getElem?_map ..).trans (congrArg _ hown)
  | tuple items =>
    obtain rfl := Except.ok.inj hgone
    rw [Object.valueWith_tuple]
    exact (List.getElem?_map ..).trans (congrArg _ hown)
  | mapping root named =>
    obtain rfl := Except.ok.inj hgone
    obtain ⟨⟨name, o⟩, hp, rfl⟩ := Option.map_eq_some_iff.mp ((List.getElem?_map ..).symm.trans hown)
    rw [Object.valueWith_mapping]
    -- the mapping of the types may be expanded itself, but a declaration is no type expression
    refine (List.getElem?_map ..).trans (Option.map_eq_some_iff.mpr ⟨(name, _), ?_, rfl⟩)
    refine getElem?_expandAt ((List.getElem?_map ..).trans (congrArg _ hp)) fun s => ?_
    exact Value.noConfusion

/-! ## Reading -/

/-- A reference is read from its record. -/
theorem readTypeRef_toValue (r : TypeRef) : readTypeRef r.toValue = .ok r := rfl

/-- A field has the type that its record gives. -/
theorem type_of_record {g : FieldDeclaration} (h : readFieldDeclaration (.dict record) = .ok g)
    (htype : Value.entry? (.text "type") record = some v) : readTypeRef v = .ok g.type := by
  obtain ⟨_, directives, hdescribed, -, rfl⟩ := seq_eq_ok.mp h
  obtain ⟨_, description, htyped, -, rfl⟩ := seq_eq_ok.mp hdescribed
  obtain ⟨_, type, hnamed, hrequired, rfl⟩ := seq_eq_ok.mp htyped
  obtain ⟨name, -, rfl⟩ := Checked.map_eq_ok.mp hnamed
  obtain ⟨v', hv', hread⟩ := required_eq_ok_iff.mp hrequired
  rw [htype] at hv'
  rwa [Option.some.inj hv']

/-- A declaration has the fields that its record lists. -/
theorem fields_of_record {t : TypeDeclaration} (h : readTypeDeclaration (.dict record) = .ok t)
    (hfields : Value.entry? (.text "fields") record = some (.list items)) :
    List.Forall₂ (fun v g => readFieldDeclaration v = .ok g) items t.fields := by
  obtain ⟨_, values, hlisted, -, rfl⟩ := seq_eq_ok.mp h
  obtain ⟨_, fields, husing, hread, rfl⟩ := seq_eq_ok.mp hlisted
  obtain ⟨_, directives, hdescribed, -, rfl⟩ := seq_eq_ok.mp husing
  obtain ⟨_, description, hnamed, -, rfl⟩ := seq_eq_ok.mp hdescribed
  obtain ⟨_, name, hkind, -, rfl⟩ := seq_eq_ok.mp hnamed
  obtain ⟨kind, -, rfl⟩ := Checked.map_eq_ok.mp hkind
  exact readItems_eq_ok_iff.mp ((withDefault_of_found hfields).mp hread)

/-- The records of declarations are read as a list, in which each stands where its declaration does and has all
entries of it. -/
theorem record_of_listTypes {types' : Value} (h : listTypes types = .ok types') (happart : Value.TextsApart own)
    (hown : (declarationsIn types)[k]? = some (.dict own)) :
    ∃ items record, readList readTypeDeclaration types' = readItems readTypeDeclaration 0 items ∧
      items[k]? = some (.dict record) ∧ Value.Extends record own := by
  cases types with
  | dict named =>
    obtain ⟨items, hitems, h⟩ := bind_eq_ok.mp h
    obtain rfl := Except.ok.inj h
    obtain ⟨⟨name, body⟩, hp, rfl⟩ := Option.map_eq_some_iff.mp ((List.getElem?_map ..).symm.trans hown)
    obtain ⟨v, hv, hrecord⟩ := exists_getElem?_of_forall₂ (mapM_eq_ok_iff.mp hitems) hp
    obtain rfl := Except.ok.inj hrecord
    exact ⟨items, _, rfl, hv, Value.extends_foldl_putEntry happart⟩
  | list items =>
    obtain rfl := Except.ok.inj h
    exact ⟨items, own, rfl, hown, fun _ _ => id⟩
  | tuple items =>
    obtain rfl := Except.ok.inj h
    exact ⟨items, own, rfl, hown, fun _ _ => id⟩
  | _ => cases hown

/-- Each declaration of a document is read from a record with all entries of the declaration that stands in its
place. -/
theorem declaration_of_ofValue {d : Document} (h : Document.ofValue (.dict entries) = .ok d)
    (htypes : Value.entry? (.text "types") entries = some types) (happart : Value.TextsApart own)
    (hown : (declarationsIn types)[k]? = some (.dict own)) :
    ∃ record t, d.types[k]? = some t ∧ readTypeDeclaration (.dict record) = .ok t ∧ Value.Extends record own := by
  simp only [Document.ofValue, htypes] at h
  obtain ⟨types', hlist, h⟩ := bind_eq_ok.mp h
  obtain ⟨listed, hlisted, h⟩ := bind_eq_ok.mp h
  obtain rfl := Except.ok.inj hlisted
  obtain ⟨items, record, hitems, hrecord, hextends⟩ := record_of_listTypes hlist happart hown
  split at h
  · next d' hread =>
    obtain rfl := Except.ok.inj h
    obtain ⟨_, declarations, hdirected, hdeclarations, rfl⟩ := seq_eq_ok.mp hread
    rw [withDefault_of_found (Value.entry?_putEntry _ _ _), hitems] at hdeclarations
    obtain ⟨_, directives, hscalars, -, rfl⟩ := seq_eq_ok.mp hdirected
    obtain ⟨scalars, -, rfl⟩ := Checked.map_eq_ok.mp hscalars
    obtain ⟨t, ht, hdeclared⟩ := exists_getElem?_of_forall₂ (readItems_eq_ok_iff.mp hdeclarations) hrecord
    exact ⟨record, t, ht, hdeclared, hextends⟩
  · cases h

/-! ## Places of a text -/

/-- A declaration in an unambiguous value for the types of a document is unambiguous. -/
theorem unambiguous_of_declarationsIn (h : types.Unambiguous) (hv : (declarationsIn types)[k]? = some v) :
    v.Unambiguous := by
  have hmem := List.mem_of_getElem? hv
  cases h with
  | list hitems => exact hitems v hmem
  | tuple hitems => exact hitems v hmem
  | set items => cases hmem
  | dict hkeys hvalues =>
    obtain ⟨p, hp, rfl⟩ := List.mem_map.mp hmem
    exact hvalues p hp
  | scalar hscalar =>
    cases types with
    | list items => cases hscalar
    | tuple items => cases hscalar
    | dict entries => cases hscalar
    | _ => cases hmem

/-- The expression that a YAML text has as the type of a field, by the places of the declaration among the types
and of the field in it. -/
def yamlType? (text : String) (k l : ℕ) : Option String := do
  let value ← (Yaml.load text).toOption
  let declaration ← (declarationsIn (← value.get? "types"))[k]?
  let .list fields ← declaration.get? "fields" | none
  let .text written ← (← fields[l]?).get? "type" | none
  return written

/-- The field at a place of a document, by the places of the type and of the field in it. -/
def Document.field? (d : Document) (k l : ℕ) : Option FieldDeclaration := do
  (← d.types[k]?).fields[l]?

/-- A value for a text key is that of a mapping. -/
theorem exists_entry?_of_get? {key : String} (h : v.get? key = some w) :
    ∃ entries, v = .dict entries ∧ Value.entry? (.text key) entries = some w := by
  cases v with
  | dict entries => exact ⟨entries, rfl, h⟩
  | _ => cases h

/-- The mappings and lists on the way to the type of a field. -/
theorem yamlType?_eq_some {text t : String} (h : yamlType? text k l = some t) :
    ∃ entries types own fields record, Yaml.load text = .ok (.dict entries) ∧
      Value.entry? (.text "types") entries = some types ∧ (declarationsIn types)[k]? = some (.dict own) ∧
      Value.entry? (.text "fields") own = some (.list fields) ∧ fields[l]? = some (.dict record) ∧
      Value.entry? (.text "type") record = some (.text t) := by
  obtain ⟨value, hload, h⟩ := Option.bind_eq_some_iff.mp h
  obtain ⟨types, htypes, h⟩ := Option.bind_eq_some_iff.mp h
  obtain ⟨declaration, hdeclaration, h⟩ := Option.bind_eq_some_iff.mp h
  obtain ⟨listed, hlisted, h⟩ := Option.bind_eq_some_iff.mp h
  split at h
  · next fields =>
    obtain ⟨field, hfield, h⟩ := Option.bind_eq_some_iff.mp h
    obtain ⟨type, htype, h⟩ := Option.bind_eq_some_iff.mp h
    split at h
    · obtain rfl := Option.some.inj h
      obtain ⟨entries, rfl, htypes⟩ := exists_entry?_of_get? htypes
      obtain ⟨own, rfl, hfields⟩ := exists_entry?_of_get? hlisted
      obtain ⟨record, rfl, htype⟩ := exists_entry?_of_get? htype
      exact ⟨entries, types, own, fields, record, eq_ok_of_toOption hload, htypes, hdeclaration, hfields, hfield,
        htype⟩
    · cases h
  · cases h

/-- The objects on the way to the type of a field, where the value has it as an expression. -/
theorem exists_writesType {given : List (Value × Object)} {own field : List (Value × Value)} {fields : List Value}
    {t : String} (hplaces : fieldPlaces given = .ok places)
    (htypes : Value.entry? (.text "types") (Value.mapEntries Object.plain given) = some types)
    (hown : (declarationsIn types)[k]? = some (.dict own))
    (hfields : Value.entry? (.text "fields") own = some (.list fields))
    (hfield : fields[l]? = some (.dict field)) (htype : Value.entry? (.text "type") field = some (.text t)) :
    ∃ place, WritesType given k l place t := by
  obtain ⟨types, hgiven, rfl⟩ := exists_object_of_entry? htypes
  obtain ⟨declarations, hgone⟩ := exists_declarationsOf hplaces hgiven
  rw [declarationsIn_plain hgone] at hown
  obtain ⟨root, own, hdeclared, rfl⟩ := exists_mapping_of_getElem? hown
  obtain ⟨o, hlisted, hplain⟩ := exists_object_of_entry? hfields
  obtain ⟨listed, rfl, rfl⟩ := Object.plain_eq_list_iff.mp hplain
  obtain ⟨place, field, hinner, rfl⟩ := exists_mapping_of_getElem? hfield
  obtain ⟨type, hwritten, hplain⟩ := exists_object_of_entry? htype
  obtain rfl := Object.plain_eq_text_iff.mp hplain
  exact ⟨place, .intro hgiven hgone hdeclared hlisted hinner hwritten⟩

/-- The field of a document has the reference that its type expression writes, where the text keys of declarations
are apart. -/
theorem WritesType.field {given : List (Value × Object)} {t : String} {e : Sdl.TypeExpr} {root : ℕ} {d : Document}
    (hwrites : WritesType given k l place t) (hunambiguous : (Object.mapping root given).plain.Unambiguous)
    (hplace : place ∈ places) (he : Sdl.readTypeExpr t = .ok e)
    (hd : Document.ofValue (.dict (expandAt places root
      (Value.mapEntries (Object.valueWith (expandAt places)) given))) = .ok d) :
    ∃ g, d.field? k l = some g ∧ g.type = .ofExpr e := by
  obtain @⟨types, declarations, listed, own, field, inner, htypes, hgone, hown, hlisted, hfield, htype⟩ := hwrites
  have happart : Value.TextsApart own := by
    rw [Object.plain_mapping] at hunambiguous
    have hentry := hunambiguous.entry ((Value.entry?_mapEntries _).trans (congrArg _ htypes))
    have hdeclared : (declarationsIn types.plain)[k]? = some (Object.mapping inner own).plain := by
      rw [declarationsIn_plain hgone, List.getElem?_map, hown, Option.map_some]
    have howned := unambiguous_of_declarationsIn hentry hdeclared
    rw [Object.plain_mapping] at howned
    exact Value.textsApart_mapEntries.mp howned.textsApart
  obtain ⟨record, declared, ht, hread, hextends⟩ :=
    declaration_of_ofValue hd (entry?_expandAt_mapEntries (by decide) htypes)
      (textsApart_expandAt (Value.textsApart_mapEntries.mpr happart)) (declaration_of_valueWith hgone hown)
  have hrecords := hextends _ _ (entry?_expandAt_mapEntries (by decide) hlisted)
  rw [Object.valueWith_list] at hrecords
  obtain ⟨g, hg, hreadField⟩ := exists_getElem?_of_forall₂ (fields_of_record hread hrecords)
    ((List.getElem?_map ..).trans (congrArg _ hfield))
  rw [Object.valueWith_mapping] at hreadField
  have hreference := type_of_record hreadField
    (entry?_expandAt_type hplace ((Value.entry?_mapEntries _).trans (congrArg _ htype)) he)
  rw [readTypeRef_toValue] at hreference
  exact ⟨g, Option.bind_eq_some_iff.mpr ⟨declared, ht, hg⟩, (Checked.ok.inj hreference).symm⟩

/-- A field of an accepted text whose type is written as an expression has the reference of this expression. -/
theorem field_of_yamlType? {text t : String} {d : Document} {e : Sdl.TypeExpr}
    (h : Document.ofYamlText text = .ok d) (ht : yamlType? text k l = some t) (he : Sdl.readTypeExpr t = .ok e) :
    ∃ g, d.field? k l = some g ∧ g.type = .ofExpr e := by
  obtain ⟨entries, types, own, fields, field, hload, htypes, hown, hfields, hfield, htype⟩ := yamlType?_eq_some ht
  obtain ⟨root, given, places, hobject, rfl, hplaces, hd⟩ := exists_places h hload
  obtain ⟨place, hwrites⟩ := exists_writesType hplaces htypes hown hfields hfield htype
  exact hwrites.field (Yaml.unambiguous_of_loadObject hobject) (hwrites.mem_fieldPlaces hplaces he) he hd

end SchemaReconcile
