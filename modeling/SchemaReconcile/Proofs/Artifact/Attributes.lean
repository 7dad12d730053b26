import SchemaReconcile.Artifact.Source
import SchemaReconcile.Proofs.Artifact.Usable
import SchemaReconcile.Proofs.Compile.Entities
import SchemaReconcile.Proofs.Extract.Names
import SchemaReconcile.Proofs.Extract.Sound
import SchemaReconcile.Proofs.Naming.SnakeCase

/-!
# Attributes of generated classes

A field of an entity has the attribute of its name, and a reference that of its column; a member of a shape has that
of its name.  A keyword gets an underscore, and this is the one place where different names become one
(`unreserved_eq_iff`): a keyword and the same word with an underscore, side by side in one class (`KeywordDoubled`).

Fields of an entity have different columns, and the snake case of an attribute without the underscore is the column of
its field (`snakeCase_attributeName`), so nothing else makes attributes of an entity the same.  Columns of references
end with the letters of an identifier, as no keyword does, so the two names are those of fields that are no
references.  Members of a shape are not held apart at all.
-/

namespace SchemaReconcile

open Naming (letters letters_append letters_snakeCase snakeCase_snakeCase)

/-! ## Names of attributes -/

/-- The name of the attribute of a field, before keywords are looked for. -/
def EntityField.attributeName (f : EntityField) : String := if f.isReference then f.columnName else f.name

/-- The names of the stored fields that are no references. -/
def Entity.plainNames (e : Entity) : List String := (e.fields.filter fun f => !f.isReference).map (·.name)

namespace EntityField

variable {f : EntityField}

/-- A field with a safe name is stored under an ASCII name. -/
theorem storedName_ascii (h : Naming.isSafe f.name = true) : ∀ c ∈ f.storedName.toList, c.toNat < 128 := by
  have hname := Artifact.toNat_lt_of_isSafe h
  unfold storedName foreignKey?
  split
  · have hid : "Id".toList.all (fun c => decide (c.toNat < 128)) = true := by decide
    rw [Option.getD_some, keyName, String.toList_append, List.forall_mem_append]
    exact ⟨hname, fun c hc => of_decide_eq_true (List.all_eq_true.mp hid c hc)⟩
  · exact hname

/-- The column of a field is the snake case of its attribute. -/
theorem snakeCase_attributeName (h : Naming.isSafe f.name = true) :
    Naming.snakeCase f.attributeName = f.columnName := by
  cases hreference : f.isReference with
  | true =>
    rw [attributeName, hreference, if_pos rfl, columnName]
    exact snakeCase_snakeCase (storedName_ascii h)
  | false =>
    have hstored : f.storedName = f.name := by
      rw [storedName, foreignKey?, hreference]
      rfl
    rw [attributeName, hreference, columnName, hstored]
    rfl

/-- The letters of the column of a reference end with those of an identifier. -/
theorem letters_columnName (h : Naming.isSafe f.name = true) (hreference : f.isReference = true) :
    ['i', 'd'] <:+ letters f.columnName.toList := by
  have hstored : f.storedName.toList = f.name.toList ++ ['I', 'd'] := by
    rw [storedName, foreignKey?, hreference, if_pos rfl, Option.getD_some, keyName, String.toList_append]
    rfl
  have hid : (letters ['I', 'd']).map Char.toLower = ['i', 'd'] := by decide
  rw [columnName, letters_snakeCase (storedName_ascii h), hstored, letters_append, List.map_append, hid]
  exact List.suffix_append _ _

end EntityField

namespace Artifact

open EntityField (snakeCase_attributeName letters_columnName)

variable {d : Document} {m : Model} {e : Entity} {a b : String} {names : List String}

/-! ## Keywords -/

/-- A keyword is among names, and so is the name that it is written as. -/
def KeywordDoubled (names : List String) : Prop := ∃ k ∈ keywords, k ∈ names ∧ k ++ "_" ∈ names

/-- Whether a keyword is doubled can be computed. -/
instance (names : List String) : Decidable (KeywordDoubled names) := inferInstanceAs (Decidable (∃ _ ∈ _, _))

/-- A keyword with an underscore is no keyword. -/
theorem underscored_not_mem (h : a ∈ keywords) : a ++ "_" ∉ keywords := (underscored_keyword h).2.2

/-- Names are written the same when they are the same, or one is a keyword and the other is this keyword with an
underscore. -/
theorem unreserved_eq_iff :
    unreserved a = unreserved b ↔ a = b ∨ (a ∈ keywords ∧ b = a ++ "_") ∨ (b ∈ keywords ∧ a = b ++ "_") := by
  by_cases ha : a ∈ keywords
  · by_cases hb : b ∈ keywords
    · have hb' : b ≠ a ++ "_" := fun h => underscored_not_mem ha (h ▸ hb)
      have ha' : a ≠ b ++ "_" := fun h => underscored_not_mem hb (h ▸ ha)
      rw [unreserved_of_mem ha, unreserved_of_mem hb]
      simp [ha', hb']
    · have ha' : a ≠ b := fun h => hb (h ▸ ha)
      rw [unreserved_of_mem ha, unreserved_of_not_mem hb]
      simp [ha, hb, ha', eq_comm]
  · by_cases hb : b ∈ keywords
    · have hb' : a ≠ b := fun h => ha (h ▸ hb)
      rw [unreserved_of_not_mem ha, unreserved_of_mem hb]
      simp [ha, hb, hb']
    · rw [unreserved_of_not_mem ha, unreserved_of_not_mem hb]
      simp [ha, hb]

/-- Names are written differently when they are different and no keyword among them is doubled. -/
theorem nodup_map_unreserved_iff : (names.map unreserved).Nodup ↔ names.Nodup ∧ ¬ KeywordDoubled names := by
  constructor
  · intro h
    refine ⟨h.of_map, ?_⟩
    rintro ⟨k, hk, hmem, hlow⟩
    have hsame : unreserved k = unreserved (k ++ "_") := unreserved_eq_iff.mpr (.inr (.inl ⟨hk, rfl⟩))
    have hequal : k = k ++ "_" := List.inj_on_of_nodup_map h hmem hlow hsame
    exact underscored_not_mem hk (hequal ▸ hk)
  · rintro ⟨hnames, hnone⟩
    refine hnames.map_on fun a ha b hb hsame => ?_
    rcases unreserved_eq_iff.mp hsame with heq | ⟨hk, rfl⟩ | ⟨hk, rfl⟩
    · exact heq
    · exact absurd ⟨a, hk, ha, hb⟩ hnone
    · exact absurd ⟨b, hk, hb, ha⟩ hnone

/-! ## Classes -/

/-- The attributes of the class of an entity, in the order of the class. -/
def entityAttributes (c : CompiledEntity) : List String := (c.fields.map entityField).map (·.name)

/-- The attributes of the class of a shape, in the order of the class. -/
def shapeAttributes (s : JsonShape) : List String := (s.fields.map shapeField).map (·.name)

/-- The attributes of the class of a shape are written for the names of its members. -/
theorem shapeAttributes_eq (s : JsonShape) : shapeAttributes s = (s.fields.map (·.name)).map unreserved := by
  rw [shapeAttributes, List.map_map, List.map_map]
  rfl

/-- The attributes of the class of an entity are written for the names of its fields and the columns of its
references. -/
theorem entityAttributes_eq {target : CompileTarget} {c : CompiledEntity} (hc : e.compile target = .ok c) :
    entityAttributes c = (e.fields.map EntityField.attributeName).map unreserved := by
  have hname : ∀ g ∈ c.fields, (entityField g).name = unreserved g.declared.attributeName := by
    intro g hg
    rw [EntityField.attributeName, ← Entity.column_eq hc hg]
    rfl
  rw [← Entity.map_declared hc, entityAttributes, List.map_map, List.map_map, List.map_map]
  exact List.map_congr_left hname

/-- A field with the name of a keyword as its attribute, or of one with an underscore, is no reference. -/
theorem name_of_attributeName {f : EntityField} (hsafe : Naming.isSafe f.name = true) {k : String}
    (hk : k ∈ keywords) (hname : f.attributeName = k ∨ f.attributeName = k ++ "_") :
    f.isReference = false ∧ f.attributeName = f.name := by
  have hnone : ∀ k ∈ keywords, ¬ ['i', 'd'] <:+ letters k.toList ∧ ¬ ['i', 'd'] <:+ letters (k ++ "_").toList := by
    decide
  have hreference : f.isReference = false := by
    rw [Bool.eq_false_iff]
    intro hreference
    have hends := letters_columnName hsafe hreference
    rw [EntityField.attributeName, if_pos hreference] at hname
    rcases hname with hname | hname
    · exact (hnone k hk).1 (hname ▸ hends)
    · exact (hnone k hk).2 (hname ▸ hends)
  refine ⟨hreference, ?_⟩
  rw [EntityField.attributeName, hreference]
  rfl

/-- Only fields that are no references double a keyword. -/
theorem keywordDoubled_attributeNames_iff (hsafe : ∀ f ∈ e.fields, Naming.isSafe f.name = true) :
    KeywordDoubled (e.fields.map EntityField.attributeName) ↔ KeywordDoubled e.plainNames := by
  -- a name that a keyword makes is the attribute of a field exactly when it is a plain name
  have hmem : ∀ k ∈ keywords, ∀ name, name = k ∨ name = k ++ "_" →
      (name ∈ e.fields.map EntityField.attributeName ↔ name ∈ e.plainNames) := by
    intro k hk name hname
    constructor
    · intro h
      obtain ⟨f, hf, rfl⟩ := List.mem_map.mp h
      obtain ⟨hreference, heq⟩ := name_of_attributeName (hsafe f hf) hk hname
      rw [heq]
      exact List.mem_map_of_mem (List.mem_filter.mpr ⟨hf, by rw [hreference]; rfl⟩)
    · intro h
      obtain ⟨f, hf, rfl⟩ := List.mem_map.mp h
      obtain ⟨hf, hreference⟩ := List.mem_filter.mp hf
      have heq : f.attributeName = f.name := if_neg (by simpa using hreference)
      exact List.mem_map.mpr ⟨f, hf, heq⟩
  refine exists_congr fun k => and_congr_right fun hk => ?_
  rw [hmem k hk k (.inl rfl), hmem k hk (k ++ "_") (.inr rfl)]

/-- The fields of an extracted entity have different names for their attributes, before keywords are looked for. -/
theorem nodup_attributeNames (hextract : extract d = .ok m) (he : e ∈ m.entities) :
    (e.fields.map EntityField.attributeName).Nodup := by
  have hcolumns : (e.fields.map EntityField.columnName).Nodup :=
    ((extract_sound hextract).entity e he).columns.nodup
  have hsnake : (e.fields.map EntityField.attributeName).map Naming.snakeCase =
      e.fields.map EntityField.columnName := by
    rw [List.map_map]
    exact List.map_congr_left fun f hf => snakeCase_attributeName ((safe_names hextract he).2 f hf)
  rw [← hsnake] at hcolumns
  exact hcolumns.of_map

/-- The attributes of generated classes.  The class of an entity has one for each stored field, in order, and they are
different exactly when no keyword is doubled among the fields that are no references.  The class of a shape has one
for each member, in order, and they are different exactly when the members have different names and double no
keyword. -/
theorem attributes_distinct_iff (hextract : extract d = .ok m) (schema : String) :
    (∀ e ∈ m.entities, ∃ c, e.compile ⟨schema, m.enums.map (·.name)⟩ = .ok c ∧
      c.fields.map (·.declared) = e.fields ∧ ((entityAttributes c).Nodup ↔ ¬ KeywordDoubled e.plainNames)) ∧
    ∀ s ∈ m.jsonShapes, ((shapeAttributes s).Nodup ↔
      (s.fields.map (·.name)).Nodup ∧ ¬ KeywordDoubled (s.fields.map (·.name))) := by
  refine ⟨fun e he => ?_, fun s _ => ?_⟩
  · obtain ⟨c, hc⟩ := ((extract_sound hextract).entity e he).compiles ⟨schema, m.enums.map (·.name)⟩ rfl
    refine ⟨c, hc, Entity.map_declared hc, ?_⟩
    rw [entityAttributes_eq hc, nodup_map_unreserved_iff,
      keywordDoubled_attributeNames_iff (safe_names hextract he).2]
    exact and_iff_right (nodup_attributeNames hextract he)
  · rw [shapeAttributes_eq, nodup_map_unreserved_iff]

/-- An entity and a shape with members that are keywords and references, none of them doubled. -/
def importDocument : Document where
  types :=
    [ { kind := .object, name := "Import", directives := [{ name := "entity" }]
        fields :=
          [ { name := "id", type := { name := "ID", nullable := false } },
            { name := "from", type := { name := "String" } },
            { name := "class", type := { name := "Import" } },
            { name := "class_", type := { name := "String" } },
            { name := "log", type := { name := "Log" } } ] },
      { kind := .object, name := "Log", directives := [{ name := "jsonField" }]
        fields := [{ name := "in", type := { name := "Int" } }, { name := "in__", type := { name := "Int" } }] } ]

/-- The model of imports and their logs. -/
def importModel : Model := (extract importDocument).toOption.getD {}

/-- The attributes of imports and of their logs are different. -/
theorem attributes_distinct_iff_importModel :
    extract importDocument = .ok importModel ∧ importModel.entities ≠ [] ∧ importModel.jsonShapes ≠ [] ∧
    (∀ e ∈ importModel.entities, ∃ c, e.compile ⟨"public", importModel.enums.map (·.name)⟩ = .ok c ∧
      entityAttributes c = ["id", "from_", "class_id", "class_", "log"] ∧ (entityAttributes c).Nodup) ∧
    ∀ s ∈ importModel.jsonShapes, shapeAttributes s = ["in_", "in__"] ∧ (shapeAttributes s).Nodup := by
  have hextract : extract importDocument = .ok importModel := eq_ok_of_toOption (by decide +kernel)
  obtain ⟨hentities, hshapes⟩ := attributes_distinct_iff hextract "public"
  have hplain : ∀ e ∈ importModel.entities, ¬ KeywordDoubled e.plainNames ∧
      (e.fields.map EntityField.attributeName).map unreserved = ["id", "from_", "class_id", "class_", "log"] := by
    decide +kernel
  have hmembers : ∀ s ∈ importModel.jsonShapes, shapeAttributes s = ["in_", "in__"] ∧
      (s.fields.map (·.name)).Nodup ∧ ¬ KeywordDoubled (s.fields.map (·.name)) := by decide +kernel
  refine ⟨hextract, by decide +kernel, by decide +kernel, fun e he => ?_, fun s hs => ?_⟩
  · obtain ⟨c, hc, -, hdistinct⟩ := hentities e he
    obtain ⟨hnone, hnames⟩ := hplain e he
    exact ⟨c, hc, (entityAttributes_eq hc).trans hnames, hdistinct.mpr hnone⟩
  · obtain ⟨hnames, hdistinct⟩ := hmembers s hs
    exact ⟨hnames, (hshapes s hs).mpr hdistinct⟩

/-- An entity and a shape with a keyword and the same word with an underscore. -/
def doubledDocument : Document where
  types :=
    [ { kind := .object, name := "Lesson", directives := [{ name := "entity" }]
        fields :=
          [ { name := "id", type := { name := "ID", nullable := false } },
            { name := "class", type := { name := "String" } },
            { name := "class_", type := { name := "Int" } } ] },
      { kind := .object, name := "Note", directives := [{ name := "jsonField" }]
        fields := [{ name := "page", type := { name := "Int" } }, { name := "page", type := { name := "String" } }] } ]

/-- The model of the doubled keywords. -/
def doubledModel : Model := (extract doubledDocument).toOption.getD {}

/-- Two fields of an entity may have one attribute, and so may two members of a shape. -/
theorem attributes_hidden :
    extract doubledDocument = .ok doubledModel ∧
    (∃ e ∈ doubledModel.entities, ∃ c, e.compile ⟨"public", doubledModel.enums.map (·.name)⟩ = .ok c ∧
      entityAttributes c = ["id", "class_", "class_"]) ∧
    ∃ s ∈ doubledModel.jsonShapes, shapeAttributes s = ["page", "page"] := by
  have hextract : extract doubledDocument = .ok doubledModel := eq_ok_of_toOption (by decide +kernel)
  have hentity : ∃ e ∈ doubledModel.entities, (e.fields.map EntityField.attributeName).map unreserved =
      ["id", "class_", "class_"] := by decide +kernel
  obtain ⟨e, he, hnames⟩ := hentity
  obtain ⟨c, hc⟩ := ((extract_sound hextract).entity e he).compiles ⟨"public", doubledModel.enums.map (·.name)⟩ rfl
  exact ⟨hextract, ⟨e, he, c, hc, (entityAttributes_eq hc).trans hnames⟩, by decide +kernel⟩

end Artifact

end SchemaReconcile
