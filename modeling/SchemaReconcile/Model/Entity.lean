import SchemaReconcile.Model.Kind

/-!
# Entities

An entity is a record type that becomes one table.  A field holds a scalar, a value of an enumeration, a
structured value, or the key of another entity.  `indexFlags` resolves what the index declarations of an
entity say about one field: whether some index names it, and the first explicit verdict on uniqueness.
-/

namespace SchemaReconcile

/-- What a field of an entity holds. -/
inductive FieldType where
  | scalar (kind : FieldKind)
  /-- A structured value of a named shape, stored as JSON. -/
  | shape (name : String)
  | enumeration (name : String)
  /-- The key of another entity. -/
  | reference (entity : String)
  deriving DecidableEq, Repr, Inhabited

namespace FieldType

/-- The scalar kind of a field that is neither an enumeration nor a reference. -/
def kind? : FieldType → Option FieldKind
  | scalar kind => some kind
  | shape _ => some .json
  | _ => none

/-- The enumeration of a field. -/
def enumeration? : FieldType → Option String
  | enumeration name => some name
  | _ => none

/-- The shape of a field. -/
def shape? : FieldType → Option String
  | shape name => some name
  | _ => none

/-- The entity that a field refers to. -/
def reference? : FieldType → Option String
  | reference entity => some entity
  | _ => none

end FieldType

/-- A stored field of an entity. -/
structure EntityField where
  name : String
  type : FieldType
  nullable : Bool := true
  isArray : Bool := false
  description : Option String := none
  deriving DecidableEq, Repr, Inhabited

namespace EntityField

/-- Whether a field is of the identifier kind, and so the primary key. -/
def isPrimaryKey (f : EntityField) : Bool := f.type == .scalar .id

/-- Whether a field refers to another entity. -/
def isReference (f : EntityField) : Bool := f.type.reference?.isSome

/-- The name of the foreign key attribute of a field. -/
def keyName (name : String) : String := name ++ "Id"

/-- The name of the foreign key attribute of a reference field. -/
def foreignKey? (f : EntityField) : Option String :=
  if f.isReference then some (keyName f.name) else none

end EntityField

/-- An index over fields of an entity, with a verdict on uniqueness if one is declared. -/
structure IndexSpec where
  fields : List String
  unique : Option Bool := none
  method : Option IndexMethod := none
  deriving DecidableEq, Repr, Inhabited

/-- Whether an index is over one certain field alone. -/
def IndexSpec.namesOnly (spec : IndexSpec) (field : String) : Bool :=
  spec.fields == [field]

/-- The verdict of an index on the uniqueness of a field. -/
def IndexSpec.verdict? (spec : IndexSpec) (field : String) : Option Bool :=
  if spec.namesOnly field then spec.unique else none

/-- What indexes say about a field. -/
structure IndexFlags where
  indexed : Bool
  unique : Option Bool
  deriving DecidableEq, Repr, Inhabited

/-- One index more is looked at; a verdict once found stays. -/
def IndexFlags.note (flags : IndexFlags) (field : String) (spec : IndexSpec) : IndexFlags :=
  if spec.fields.contains field then
    ⟨true, flags.unique.orElse fun _ => spec.verdict? field⟩
  else flags

/-- What a list of indexes says about a field. -/
def indexFlags (field : String) (indexes : List IndexSpec) : IndexFlags :=
  indexes.foldl (fun flags spec => flags.note field spec) ⟨false, none⟩

/-- An entity: its stored fields in declaration order and its indexes. -/
structure Entity where
  name : String
  fields : List EntityField
  indexes : List IndexSpec := []
  description : Option String := none
  deriving DecidableEq, Repr, Inhabited

namespace Entity

/-- The primary key fields of an entity; a sound entity has exactly one. -/
def primaryKeys (e : Entity) : List EntityField := e.fields.filter EntityField.isPrimaryKey

/-- The primary key field of an entity. -/
def primaryKey? (e : Entity) : Option EntityField := e.fields.find? EntityField.isPrimaryKey

/-- The field of a name. -/
def field? (e : Entity) (name : String) : Option EntityField :=
  e.fields.find? fun f => f.name == name

/-- What the indexes of an entity say about a field. -/
def indexFlags (e : Entity) (field : String) : IndexFlags :=
  SchemaReconcile.indexFlags field e.indexes

end Entity

end SchemaReconcile
