import SchemaReconcile.Codec.Basic

/-!
# Rows

A record goes through the codecs of its fields: a field that the record has and that has a codec is
exchanged, in the order of the fields, and everything else stays.
-/

namespace SchemaReconcile

open Number (Capacity)

/-- A field of a row with its codec. -/
structure RowField where
  name : String
  codec : Option Codec
  deriving DecidableEq, Repr, Inhabited

/-- A record with text keys, in order. -/
abbrev Row := List (String × Value)

/-- A record with a new value for a key that it has. -/
def Row.set (row : Row) (key : String) (value : Value) : Row :=
  row.map fun (k, v) => if k == key then (k, value) else (k, v)

/-- A record after the exchange of one field; the value is taken from the record as it was given. -/
def exchangeField (exchange : Codec → Option String → Value → Except CodecFault Value)
    (given row : Row) (f : RowField) : Except CodecFault Row :=
  match f.codec, List.lookup f.name given with
  | some codec, some v => do
    let v ← exchange codec (some f.name) v
    return row.set f.name v
  | _, _ => .ok row

/-- A record after the exchange of its fields. -/
def exchangeRow (exchange : Codec → Option String → Value → Except CodecFault Value)
    (given : Row) (fields : List RowField) : Except CodecFault Row :=
  fields.foldlM (exchangeField exchange given) given

/-- A host record for the database. -/
def encodeRow [Capacity] (fields : List RowField) (row : Row) : Except CodecFault Row :=
  exchangeRow Codec.toDatabase row fields

/-- A database record for the host. -/
def decodeRow [Capacity] (fields : List RowField) (row : Row) : Except CodecFault Row :=
  exchangeRow Codec.fromDatabase row fields

end SchemaReconcile
