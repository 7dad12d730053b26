import SchemaReconcile.Model.Basic
import SchemaReconcile.Shape.Basic

/-!
# Models from dynamic values

The shapes of the records of a model with the rules that each record keeps, and the values of a model as
dynamic ones.
-/

namespace SchemaReconcile

open Shape
open Shape.Checked (andThen fault)

/-! ## Reading -/

/-- A field of an entity holds exactly one of a scalar kind, an enumeration and a reference, and only a
JSON field has a shape. -/
def entityFieldOf (name : String) (kind : Option FieldKind)
    (enumeration shape reference : Option String) (nullable isArray : Bool)
    (description : Option String) : Checked EntityField :=
  let field (type : FieldType) : Checked EntityField :=
    .ok { name, type, nullable, isArray, description }
  let notOne : Checked EntityField :=
    fault (.valueError ("field " ++ name ++ " must have exactly one of kind, enum, reference"))
  let notJson : Checked EntityField :=
    fault (.valueError ("field " ++ name ++ " embeds a JSON shape but is not Json kind"))
  match kind, enumeration, reference, shape with
  | some k, none, none, none => field (.scalar k)
  | some .json, none, none, some s => field (.shape s)
  | none, some e, none, none => field (.enumeration e)
  | none, none, some r, none => field (.reference r)
  | some _, none, none, some _ => notJson
  | none, some _, none, some _ => notJson
  | none, none, some _, some _ => notJson
  | _, _, _, _ => notOne

/-- A field of an entity. -/
def readEntityField : Value → Checked EntityField :=
  readRecord fun r => andThen (entityFieldOf <$> required "name" readText r
    <*> withDefault "kind" none (readOptional (readWord FieldKind.ofName?)) r
    <*> withDefault "enum" none (readOptional readText) r
    <*> withDefault "json_shape" none (readOptional readText) r
    <*> withDefault "reference" none (readOptional readText) r
    <*> withDefault "nullable" true readBool r
    <*> withDefault "is_array" false readBool r
    <*> withDefault "description" none (readOptional readText) r) id

/-- An index. -/
def readIndexSpec : Value → Checked IndexSpec :=
  readRecord fun r => IndexSpec.mk <$> required "fields" (readList readText) r
    <*> withDefault "unique" none (readOptional readBool) r
    <*> withDefault "using" none (readOptional (readWord IndexMethod.ofName?)) r

/-- The fault of an entity without exactly one identifier field. -/
def identifierCount (name : String) (count : Nat) : String :=
  "entity " ++ name ++ " must have exactly one ID field, found " ++ toString count

/-- An entity has exactly one identifier field. -/
def entityOf (e : Entity) : Checked Entity :=
  if e.primaryKeys.length = 1 then .ok e
  else fault (.valueError (identifierCount e.name e.primaryKeys.length))

/-- An entity. -/
def readEntity : Value → Checked Entity :=
  readRecord fun r => andThen (Entity.mk <$> required "name" readText r
    <*> required "fields" (readList readEntityField) r
    <*> withDefault "indexes" [] (readList readIndexSpec) r
    <*> withDefault "description" none (readOptional readText) r) entityOf

/-- Why a list of values is no enumeration: it is empty, or a value stands twice. -/
def enumerationFault? (values : List String) : Option FaultKind :=
  if values.isEmpty then some .tooShort
  else if values.eraseDups.length = values.length then none
  else some (.valueError "enumeration values must be unique")

/-- The values of an enumeration. -/
def readEnumValues (v : Value) : Checked (List String) :=
  andThen (readList readText v) fun values =>
    match enumerationFault? values with
    | none => .ok values
    | some kind => fault kind

/-- An enumeration. -/
def readEnumeration : Value → Checked Enumeration :=
  readRecord fun r => Enumeration.mk <$> required "name" readText r
    <*> required "values" readEnumValues r
    <*> withDefault "description" none (readOptional readText) r

/-- A member of a shape holds exactly one of a scalar kind and a nested shape. -/
def shapeMemberOf (name : String) (kind : Option FieldKind) (shape : Option String)
    (nullable isArray : Bool) : Checked ShapeMember :=
  match kind, shape with
  | some k, none => .ok { name, type := .scalar k, nullable, isArray }
  | none, some s => .ok { name, type := .shape s, nullable, isArray }
  | _, _ => fault (.valueError ("json field " ++ name ++ " must have exactly one of kind, shape"))

/-- A member of a shape. -/
def readShapeMember : Value → Checked ShapeMember :=
  readRecord fun r => andThen (shapeMemberOf <$> required "name" readText r
    <*> withDefault "kind" none (readOptional (readWord FieldKind.ofName?)) r
    <*> withDefault "shape" none (readOptional readText) r
    <*> withDefault "nullable" true readBool r
    <*> withDefault "is_array" false readBool r) id

/-- A shape. -/
def readJsonShape : Value → Checked JsonShape :=
  readRecord fun r => JsonShape.mk <$> required "name" readText r
    <*> required "fields" (readList readShapeMember) r
    <*> withDefault "description" none (readOptional readText) r

/-- A relation. -/
def readRelation : Value → Checked Relation :=
  readRecord fun r => Relation.mk <$> required "from_entity" readText r
    <*> required "to_entity" readText r
    <*> required "kind" (readWord RelationKind.ofName?) r
    <*> required "foreign_key" readText r
    <*> required "field_name" readText r

/-- A model. -/
def readModel : Value → Checked Model :=
  readRecord fun r => Model.mk <$> withDefault "entities" [] (readList readEntity) r
    <*> withDefault "enums" [] (readList readEnumeration) r
    <*> withDefault "json_shapes" [] (readList readJsonShape) r
    <*> withDefault "relations" [] (readList readRelation) r

/-! ## Writing -/

/-- A field of an entity as a record. -/
def EntityField.toValue (f : EntityField) : Value :=
  .object [("name", .text f.name), ("kind", .optionalText (f.type.kind?.map FieldKind.name)),
    ("enum", .optionalText f.type.enumeration?), ("json_shape", .optionalText f.type.shape?),
    ("reference", .optionalText f.type.reference?), ("nullable", .bool f.nullable),
    ("is_array", .bool f.isArray), ("description", .optionalText f.description)]

/-- An index as a record. -/
def IndexSpec.toValue (i : IndexSpec) : Value :=
  .object [("fields", .texts i.fields), ("unique", .optionalBool i.unique),
    ("using", .optionalText (i.method.map IndexMethod.name))]

/-- An entity as a record. -/
def Entity.toValue (e : Entity) : Value :=
  .object [("name", .text e.name), ("fields", .list (e.fields.map EntityField.toValue)),
    ("indexes", .list (e.indexes.map IndexSpec.toValue)),
    ("description", .optionalText e.description)]

/-- An enumeration as a record. -/
def Enumeration.toValue (e : Enumeration) : Value :=
  .object [("name", .text e.name), ("values", .texts e.values),
    ("description", .optionalText e.description)]

/-- A member of a shape as a record. -/
def ShapeMember.toValue (f : ShapeMember) : Value :=
  .object [("name", .text f.name), ("kind", .optionalText (f.type.kind?.map FieldKind.name)),
    ("shape", .optionalText f.type.shape?), ("nullable", .bool f.nullable),
    ("is_array", .bool f.isArray)]

/-- A shape as a record. -/
def JsonShape.toValue (s : JsonShape) : Value :=
  .object [("name", .text s.name), ("fields", .list (s.fields.map ShapeMember.toValue)),
    ("description", .optionalText s.description)]

/-- A relation as a record. -/
def Relation.toValue (r : Relation) : Value :=
  .object [("from_entity", .text r.source), ("to_entity", .text r.target),
    ("kind", .text r.kind.name), ("foreign_key", .text r.foreignKey),
    ("field_name", .text r.fieldName)]

/-- A model as a record. -/
def Model.toValue (m : Model) : Value :=
  .object [("entities", .list (m.entities.map Entity.toValue)),
    ("enums", .list (m.enums.map Enumeration.toValue)),
    ("json_shapes", .list (m.jsonShapes.map JsonShape.toValue)),
    ("relations", .list (m.relations.map Relation.toValue))]

end SchemaReconcile
