import SchemaReconcile.Model.Entity

/-!
# Schema models

The normal form of a schema document: entities, enumerations, structured shapes, and the relations
between entities.
-/

namespace SchemaReconcile

/-- An ordered set of named values. -/
structure Enumeration where
  name : String
  values : List String
  description : Option String := none
  deriving DecidableEq, Repr, Inhabited

/-- What a member of a shape holds. -/
inductive MemberType where
  | scalar (kind : FieldKind)
  | shape (name : String)
  deriving DecidableEq, Repr, Inhabited

/-- The shape nested in a member. -/
def MemberType.shape? : MemberType → Option String
  | shape name => some name
  | _ => none

/-- The scalar kind of a member. -/
def MemberType.kind? : MemberType → Option FieldKind
  | scalar kind => some kind
  | _ => none

/-- A member of a shape. -/
structure ShapeMember where
  name : String
  type : MemberType
  nullable : Bool := true
  isArray : Bool := false
  deriving DecidableEq, Repr, Inhabited

/-- A structured value that is stored as one JSON column. -/
structure JsonShape where
  name : String
  fields : List ShapeMember
  description : Option String := none
  deriving DecidableEq, Repr, Inhabited

/-- The shapes nested in a shape, in member order. -/
def JsonShape.nested (s : JsonShape) : List String :=
  s.fields.filterMap fun f => f.type.shape?

/-- A relation between two entities, exposed by a field of the first. -/
structure Relation where
  source : String
  target : String
  kind : RelationKind
  /-- The name of the foreign key attribute. -/
  foreignKey : String
  /-- The field of the source that exposes the relation. -/
  fieldName : String
  deriving DecidableEq, Repr, Inhabited

namespace Relation

/-- The entity whose table holds the foreign key. -/
def keyOwner (r : Relation) : String :=
  if r.kind = .belongsTo then r.source else r.target

/-- The entity whose primary key the foreign key holds. -/
def keyTarget (r : Relation) : String :=
  if r.kind = .belongsTo then r.target else r.source

/-- A short description of a relation. -/
def describe (r : Relation) : String :=
  r.kind.name ++ "(" ++ r.source ++ "->" ++ r.target ++ ", " ++ r.foreignKey ++ ")"

end Relation

/-- A schema model. -/
structure Model where
  entities : List Entity := []
  enums : List Enumeration := []
  jsonShapes : List JsonShape := []
  relations : List Relation := []
  deriving DecidableEq, Repr, Inhabited

namespace Model

/-- The first entity of a name. -/
def entity? (m : Model) (name : String) : Option Entity :=
  m.entities.find? fun e => e.name == name

/-- The relations that start at an entity. -/
def relationsFrom (m : Model) (name : String) : List Relation :=
  m.relations.filter fun r => r.source == name

end Model

end SchemaReconcile
