/-!
# Closed vocabularies

The scalar kinds of fields, the kinds of relations, and the index access methods, each with the word
that schema documents use for it.
-/

namespace SchemaReconcile

/-- The scalar kinds of fields. -/
inductive FieldKind where
  | bigInt
  | bigDecimal
  | boolean
  | bytes
  | date
  | float
  | id
  | int
  | json
  | string
  deriving DecidableEq, Repr, Inhabited

namespace FieldKind

/-- All scalar kinds. -/
def all : List FieldKind :=
  [bigInt, bigDecimal, boolean, bytes, date, float, id, int, json, string]

/-- The word of a scalar kind. -/
def name : FieldKind → String
  | bigInt => "BigInt"
  | bigDecimal => "BigDecimal"
  | boolean => "Boolean"
  | bytes => "Bytes"
  | date => "Date"
  | float => "Float"
  | id => "ID"
  | int => "Int"
  | json => "Json"
  | string => "String"

/-- The scalar kind of a word. -/
def ofName? (s : String) : Option FieldKind :=
  all.find? fun k => k.name == s

end FieldKind

/-- The kinds of relations between entities. -/
inductive RelationKind where
  | belongsTo
  | hasOne
  | hasMany
  deriving DecidableEq, Repr, Inhabited

namespace RelationKind

/-- The word of a kind of relation. -/
def name : RelationKind → String
  | belongsTo => "belongsTo"
  | hasOne => "hasOne"
  | hasMany => "hasMany"

/-- The kind of relation of a word. -/
def ofName? (s : String) : Option RelationKind :=
  [belongsTo, hasOne, hasMany].find? fun k => k.name == s

end RelationKind

/-- The index access methods. -/
inductive IndexMethod where
  | btree
  | hash
  | gin
  | gist
  | brin
  deriving DecidableEq, Repr, Inhabited

namespace IndexMethod

/-- All index access methods. -/
def all : List IndexMethod := [btree, hash, gin, gist, brin]

/-- The word of an index access method. -/
def name : IndexMethod → String
  | btree => "btree"
  | hash => "hash"
  | gin => "gin"
  | gist => "gist"
  | brin => "brin"

/-- The index access method of a word. -/
def ofName? (s : String) : Option IndexMethod :=
  all.find? fun m => m.name == s

end IndexMethod

end SchemaReconcile
