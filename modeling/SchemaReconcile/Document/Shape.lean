import SchemaReconcile.Document.Basic
import SchemaReconcile.Shape.Basic

/-!
# Documents from dynamic values

The shapes of the records of a document, and their values as dynamic ones.  The types of a document may
be given as a mapping from names to bodies.
-/

namespace SchemaReconcile

open Shape

/-! ## Reading -/

/-- A type reference. -/
def readTypeRef : Value → Checked TypeRef :=
  readRecord fun r => TypeRef.mk <$> required "name" readText r
    <*> withDefault "nullable" true readBool r
    <*> withDefault "is_array" false readBool r
    <*> withDefault "item_nullable" true readBool r

/-- A directive usage. -/
def readDirectiveUsage : Value → Checked DirectiveUsage :=
  readRecord fun r => DirectiveUsage.mk <$> required "name" readText r
    <*> withDefault "arguments" [] readMapping r

/-- A field declaration. -/
def readFieldDeclaration : Value → Checked FieldDeclaration :=
  readRecord fun r => FieldDeclaration.mk <$> required "name" readText r
    <*> required "type" readTypeRef r
    <*> withDefault "description" none (readOptional readText) r
    <*> withDefault "directives" [] (readList readDirectiveUsage) r

/-- A type declaration. -/
def readTypeDeclaration : Value → Checked TypeDeclaration :=
  readRecord fun r => TypeDeclaration.mk <$> required "kind" (readWord DeclarationKind.ofName?) r
    <*> required "name" readText r
    <*> withDefault "description" none (readOptional readText) r
    <*> withDefault "directives" [] (readList readDirectiveUsage) r
    <*> withDefault "fields" [] (readList readFieldDeclaration) r
    <*> withDefault "values" [] (readList readText) r

/-- An argument declaration. -/
def readArgumentDeclaration : Value → Checked ArgumentDeclaration :=
  readRecord fun r => ArgumentDeclaration.mk <$> required "name" readText r
    <*> required "type" readTypeRef r

/-- A directive declaration. -/
def readDirectiveDeclaration : Value → Checked DirectiveDeclaration :=
  readRecord fun r => DirectiveDeclaration.mk <$> required "name" readText r
    <*> withDefault "arguments" [] (readList readArgumentDeclaration) r
    <*> withDefault "locations" [] (readList readText) r

/-- A document. -/
def readDocumentRecord : Value → Checked Document :=
  readRecord fun r => Document.mk <$> withDefault "scalars" [] (readList readText) r
    <*> withDefault "directives" [] (readList readDirectiveDeclaration) r
    <*> withDefault "types" [] (readList readTypeDeclaration) r

/-- Why a dynamic value is no document. -/
inductive DocumentFault where
  /-- A value stands where only a collection can be gone through. -/
  | notIterable
  /-- The shape is wrong. -/
  | shape (faults : List Shape.Fault)
  deriving DecidableEq, Repr

/-- The entries of a type body: a mapping, or nothing for a value that counts as false. -/
def bodyEntries (body : Value) : Except DocumentFault (List (Value × Value)) :=
  match body with
  | .dict entries => .ok entries
  | v => if v.truthy then .error .notIterable else .ok []

/-- Types given as a mapping as a list of records; a name in a body wins over the key. -/
def listTypes (types : Value) : Except DocumentFault Value :=
  match types with
  | .dict entries => do
    let items ← entries.mapM fun (name, body) => do
      let own ← bodyEntries body
      return Value.dict (own.foldl (fun done (k, v) => Value.putEntry k v done)
        [(.text "name", name)])
    return .list items
  | v => .ok v

/-- A document of a dynamic value. -/
def Document.ofValue (v : Value) : Except DocumentFault Document := do
  let listed ← match v with
    | .dict entries =>
      match Value.entry? (.text "types") entries with
      | some types => do
        let types ← listTypes types
        pure (Value.dict (Value.putEntry (.text "types") types entries))
      | none => pure v
    | _ => pure v
  match readDocumentRecord listed with
  | .ok d => return d
  | .faults all => throw (.shape all)

/-! ## Writing -/

/-- A type reference as a record. -/
def TypeRef.toValue (t : TypeRef) : Value :=
  .object [("name", .text t.name), ("nullable", .bool t.nullable), ("is_array", .bool t.isArray),
    ("item_nullable", .bool t.itemNullable)]

/-- A directive usage as a record. -/
def DirectiveUsage.toValue (u : DirectiveUsage) : Value :=
  .object [("name", .text u.name), ("arguments", .dict u.arguments)]

/-- A field declaration as a record. -/
def FieldDeclaration.toValue (f : FieldDeclaration) : Value :=
  .object [("name", .text f.name), ("type", f.type.toValue),
    ("description", .optionalText f.description),
    ("directives", .list (f.directives.map DirectiveUsage.toValue))]

/-- A type declaration as a record. -/
def TypeDeclaration.toValue (t : TypeDeclaration) : Value :=
  .object [("kind", .text t.kind.name), ("name", .text t.name),
    ("description", .optionalText t.description),
    ("directives", .list (t.directives.map DirectiveUsage.toValue)),
    ("fields", .list (t.fields.map FieldDeclaration.toValue)), ("values", .texts t.values)]

/-- An argument declaration as a record. -/
def ArgumentDeclaration.toValue (a : ArgumentDeclaration) : Value :=
  .object [("name", .text a.name), ("type", a.type.toValue)]

/-- A directive declaration as a record. -/
def DirectiveDeclaration.toValue (d : DirectiveDeclaration) : Value :=
  .object [("name", .text d.name), ("arguments", .list (d.arguments.map ArgumentDeclaration.toValue)),
    ("locations", .texts d.locations)]

/-- A document as a record. -/
def Document.toValue (d : Document) : Value :=
  .object [("scalars", .texts d.scalars),
    ("directives", .list (d.directives.map DirectiveDeclaration.toValue)),
    ("types", .list (d.types.map TypeDeclaration.toValue))]

end SchemaReconcile
