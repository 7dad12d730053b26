import SchemaReconcile.Extract.Entities

/-!
# Relations of a document

Relations are never declared.  A stored reference field yields that its entity belongs to the other; a
derived field yields that its entity has one or many of the other, by the uniqueness of the field it
points at.  A field is the source of at most one derived field.
-/

namespace SchemaReconcile

/-- A relation with a notice if a single-valued field stands for many. -/
structure Inferred where
  relation : Relation
  notice : Option String := none
  deriving DecidableEq, Repr, Inhabited

/-- What a field of an entity declaration yields, given the fields that are sources already: relations
with the sources after it. -/
def inferField (entities : List Entity) (entity : Entity)
    (sources : List (String × String)) (f : FieldDeclaration) :
    Except ExtractFault (Option Inferred × List (String × String)) :=
  match f.derivedFrom? with
  | none =>
    match entity.field? f.name with
    | some stored =>
      match stored.type with
      | .reference target =>
        .ok (some { relation := {
          source := entity.name, target, kind := .belongsTo,
          foreignKey := EntityField.keyName stored.name, fieldName := stored.name } }, sources)
      | _ => .ok (none, sources)
    | none => .ok (none, sources)
  | some u =>
    let back := backField u
    let target := f.type.name
    if sources.contains (target, back) then
      .error (.sharedSource entity.name f.name target back)
    else
      let unique := match entities.find? fun e => e.name == target with
        | some e => (e.indexFlags back).unique
        | none => none
      let kind := if unique = some true then RelationKind.hasOne else .hasMany
      let notice := if kind = .hasMany && !f.type.isArray then
          some (entity.name ++ "." ++ f.name ++ " is single-valued but " ++ target ++ "." ++ back ++
            " is not unique; inferring hasMany")
        else none
      .ok (some { relation := {
          source := entity.name, target, kind, foreignKey := EntityField.keyName back,
          fieldName := f.name }, notice }, (target, back) :: sources)

/-- What the fields of entity declarations yield, up to a fault; each field comes with its entity. -/
def inferFields (entities : List Entity) (sources : List (String × String)) :
    List (Entity × FieldDeclaration) → List Inferred × Option ExtractFault
  | [] => ([], none)
  | (entity, f) :: rest =>
    match inferField entities entity sources f with
    | .error fault => ([], some fault)
    | .ok (found, sources) =>
      let (later, fault) := inferFields entities sources rest
      (found.toList ++ later, fault)

/-- The fields of the declarations of entities, in order, each with its entity. -/
def declaredFields (ds : Declarations) (entities : List Entity) : List (Entity × FieldDeclaration) :=
  entities.flatMap fun e => match ds.entity? e.name with
    | some d => d.fields.map fun f => (e, f)
    | none => []

/-- The relations between entities with their notices, up to a fault. -/
def inferRelations (ds : Declarations) (entities : List Entity) :
    List Inferred × Option ExtractFault :=
  inferFields entities [] (declaredFields ds entities)

end SchemaReconcile
