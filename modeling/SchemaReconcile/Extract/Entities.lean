import SchemaReconcile.Compile.Columns
import SchemaReconcile.Extract.Declarations
import SchemaReconcile.Model.Shape

/-!
# Enumerations, shapes and entities of a document

The parts of a model that one declaration yields.  A derived field yields no stored field; it must point
back at a stored field of an entity that refers to its own entity.
-/

namespace SchemaReconcile

/-- The enumeration of a declaration. -/
def buildEnum (d : TypeDeclaration) : Except ExtractFault Enumeration :=
  match enumerationFault? d.values with
  | some kind => .error (.enumeration d.name kind)
  | none => .ok ⟨d.name, d.values, d.description⟩

namespace Declarations

/-- The scalar kind of a type name; a declared scalar without one is refused. -/
def scalarKind? (ds : Declarations) (type : String) : Except ExtractFault (Option FieldKind) :=
  if ds.document.scalars.contains type then
    match FieldKind.ofName? type with
    | some kind => .ok (some kind)
    | none => .error (.unstoredScalar type)
  else .ok none

/-- The member of a shape that a field declares. -/
def buildMember (ds : Declarations) (owner : TypeDeclaration) (f : FieldDeclaration) :
    Except ExtractFault ShapeMember := do
  let member (type : MemberType) : ShapeMember :=
    { name := f.name, type, nullable := f.type.nullable, isArray := f.type.isArray }
  match ← ds.scalarKind? f.type.name with
  | some kind => return member (.scalar kind)
  | none =>
    if ds.has .shape f.type.name then return member (.shape f.type.name)
    else throw (.unknownMemberType owner.name f.name f.type.name)

/-- The shape of a declaration. -/
def buildShape (ds : Declarations) (d : TypeDeclaration) : Except ExtractFault JsonShape := do
  let fields ← d.fields.mapM (ds.buildMember d)
  return ⟨d.name, fields, d.description⟩

/-- The stored field that a field declares. -/
def buildField (ds : Declarations) (owner : TypeDeclaration) (f : FieldDeclaration) :
    Except ExtractFault EntityField := do
  let field (type : FieldType) : EntityField :=
    { name := f.name, type, nullable := f.type.nullable, isArray := f.type.isArray,
      description := f.description }
  match ← ds.scalarKind? f.type.name with
  | some kind =>
    if kind = .id && f.type.isArray then throw (.listOfIdentifiers owner.name f.name)
    return field (.scalar kind)
  | none =>
    if ds.has .enumeration f.type.name then return field (.enumeration f.type.name)
    else if ds.has .shape f.type.name then return field (.shape f.type.name)
    else if ds.has .entity f.type.name then
      if f.type.isArray then throw (.listOfEntities owner.name f.name)
      return field (.reference f.type.name)
    else throw (.unknownFieldType owner.name f.name f.type.name)

end Declarations

/-! ## Indexes -/

/-- The access method of a word in any case. -/
def indexMethodOf (owner field : String) : Option Value → Except ExtractFault (Option IndexMethod)
  | some (.text word) =>
    match IndexMethod.ofName? (String.ofList (Text.lower word.toList)) with
    | some m => .ok (some m)
    | none => .error (.indexMethod owner field word)
  | _ => .ok none

/-- The index that a field declares. -/
def fieldIndex? (owner : TypeDeclaration) (f : FieldDeclaration) :
    Except ExtractFault (Option IndexSpec) :=
  match f.directive? KnownDirective.index.name with
  | none => .ok none
  | some u => do
    let unique := match u.argument? "unique" with
      | some (.bool b) => some b
      | _ => none
    let method ← indexMethodOf owner.name f.name (u.argument? "using")
    return some ⟨[f.name], unique, method⟩

/-- Whether a list of values holds one of them twice. -/
def repeatsKey : List Value → Bool
  | [] => false
  | v :: rest => rest.any (Value.sameKey v) || repeatsKey rest

/-- A name in an index group is that of a stored field. -/
def checkGroupName (owner : String) (stored derived : List String) (name : Value) :
    Except ExtractFault String :=
  match name with
  | .text s =>
    if derived.contains s then .error (.indexOnDerived owner s)
    else if stored.contains s then .ok s
    else .error (.indexGroupField owner (some s) name.shown)
  | v => .error (.indexGroupField owner none v.shown)

/-- The index of a group of field names. -/
def groupIndex (owner : String) (stored derived : List String) (group : Value) :
    Except ExtractFault IndexSpec :=
  match group with
  | .list (first :: more) => do
    let names := first :: more
    if !names.all Value.isKey then throw .indexGroupNested
    if repeatsKey names then throw (.indexGroupRepeats owner group.shown)
    let fields ← names.mapM (checkGroupName owner stored derived)
    return { fields }
  | _ => .error (.indexGroupForm owner)

/-- The indexes over several fields that an entity declares. -/
def groupIndexes (owner : TypeDeclaration) (stored derived : List String) :
    Except ExtractFault (List IndexSpec) :=
  match owner.directive? KnownDirective.compositeIndexes.name with
  | none => .ok []
  | some u =>
    match u.argument? "fields" with
    | some (.list groups) => groups.mapM (groupIndex owner.name stored derived)
    | _ => .ok []

/-! ## Derived fields -/

/-- The use of the directive that makes a field derived. -/
def FieldDeclaration.derivedFrom? (f : FieldDeclaration) : Option DirectiveUsage :=
  f.directive? KnownDirective.derivedFrom.name

/-- The field of the other entity that a derived field points at. -/
def backField (u : DirectiveUsage) : String :=
  match u.argument? "field" with
  | some v => v.display
  | none => ""

/-- A derived field has no index, has an entity type, and points at a stored field that refers to its
owner. -/
def Declarations.checkDerived (ds : Declarations) (owner : TypeDeclaration) (f : FieldDeclaration)
    (u : DirectiveUsage) : Except ExtractFault Unit :=
  if (f.directive? KnownDirective.index.name).isSome then .error (.indexOnDerived owner.name f.name)
  else match ds.entity? f.type.name with
    | none => .error (.derivedType owner.name f.name f.type.name)
    | some target =>
      let back := backField u
      let fault (b : BackReferenceFault) : Except ExtractFault Unit :=
        .error (.backReference owner.name f.name target.name back b)
      match target.fields.find? fun c => c.name == back with
      | none => fault .missing
      | some candidate =>
        if candidate.type.name != owner.name || candidate.type.isArray then fault .notReferring
        else if candidate.derivedFrom?.isSome then fault .derived
        else .ok ()

/-! ## Entities -/

/-- What a field of an entity declaration yields. -/
inductive FieldPart where
  | derived (name : String)
  | stored (field : EntityField) (index : Option IndexSpec)
  deriving Repr

/-- What a field of an entity declaration yields, once it is sound. -/
def Declarations.fieldPart (ds : Declarations) (owner : TypeDeclaration) (f : FieldDeclaration) :
    Except ExtractFault FieldPart :=
  match f.derivedFrom? with
  | some u => do
    ds.checkDerived owner f u
    return .derived f.name
  | none => do
    let field ← ds.buildField owner f
    let index ← fieldIndex? owner f
    return .stored field index

/-- The stored field of a part. -/
def FieldPart.field? : FieldPart → Option EntityField
  | derived _ => none
  | stored field _ => some field

/-- The index of a part. -/
def FieldPart.index? : FieldPart → Option IndexSpec
  | derived _ => none
  | stored _ index => index

/-- The name of a derived part. -/
def FieldPart.derived? : FieldPart → Option String
  | derived name => some name
  | stored _ _ => none

/-- The entity of a declaration. -/
def Declarations.buildEntity (ds : Declarations) (d : TypeDeclaration) :
    Except ExtractFault Entity := do
  let parts ← d.fields.mapM (ds.fieldPart d)
  let fields := parts.filterMap FieldPart.field?
  let groups ← groupIndexes d (fields.map (·.name)) (parts.filterMap FieldPart.derived?)
  let entity : Entity :=
    { name := d.name, fields, indexes := parts.filterMap FieldPart.index? ++ groups,
      description := d.description }
  if entity.primaryKeys.length = 1 then return entity
  else throw (.identifierCount d.name entity.primaryKeys.length)

/-! ## Names in the database -/

/-- The columns of fields are pairwise different; `taken` are the columns so far with their fields. -/
def checkColumns (owner : String) (taken : List (String × String)) :
    List EntityField → Except ExtractFault Unit
  | [] => .ok ()
  | f :: rest =>
    match f.column with
    | .error u => .error (.unsafeName u)
    | .ok column =>
      match taken.lookup column with
      | some first => .error (.sharedColumn owner first f.name column)
      | none => checkColumns owner ((column, f.name) :: taken) rest

/-- The tables of entities are pairwise different, and so are the columns of each; `taken` are the
tables so far with their entities. -/
def checkStorageNames (taken : List (String × String)) : List Entity → Except ExtractFault Unit
  | [] => .ok ()
  | e :: rest =>
    match Naming.tableName e.name with
    | .error u => .error (.unsafeName u)
    | .ok table =>
      match taken.lookup table with
      | some first => .error (.sharedTable first e.name table)
      | none => do
        checkColumns e.name [] e.fields
        checkStorageNames ((table, e.name) :: taken) rest

end SchemaReconcile
