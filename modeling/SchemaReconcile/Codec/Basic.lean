import SchemaReconcile.Model.Kind
import SchemaReconcile.Value.Shown

/-!
# Codecs

The exchange of values with the database.  Big integers are sent as exact decimal text and read back as
integers; bytes are hexadecimal text to the host and binary data to the database; every other kind
passes through unchanged.  `bigIntegerToDatabase` writes the canonical text of an integer, and
`bytesToDatabase` accepts exactly an even number of hexadecimal digits after an optional mark.
-/

namespace SchemaReconcile

open Number (Decimal Capacity)

/-- The codecs. -/
inductive Codec where
  | bigInteger
  | bytes
  | identity
  deriving DecidableEq, Repr, Inhabited

namespace Codec

/-- The word of a codec. -/
def name : Codec → String
  | bigInteger => "bigint"
  | bytes => "bytes"
  | identity => "identity"

/-- The codec of a word. -/
def ofName? (s : String) : Option Codec :=
  [bigInteger, bytes, identity].find? fun c => c.name == s

/-- The codec of a scalar kind; most kinds need none. -/
def ofKind? : FieldKind → Option Codec
  | .bigInt => some bigInteger
  | .bytes => some bytes
  | _ => none

end Codec

/-- What is wrong with a value that breaks the contract of its field. -/
inductive EncodingReason where
  | notInteger (typeName : String)
  | notIntegral (shown : String)
  | notHexText (typeName : String)
  | badHexText (shown : String)
  | notBinary (typeName : String)
  deriving DecidableEq, Repr

/-- Why a value is not exchanged. -/
inductive CodecFault where
  /-- The value breaks the contract of the field. -/
  | encoding (field : Option String) (reason : EncodingReason)
  /-- The text of an integer is refused. -/
  | integer (fault : Text.IntegerFault)
  /-- A number read from the database is none. -/
  | notANumber
  /-- A number read from the database is infinite. -/
  | infinite
  /-- The integer of a decimal is too long for memory. -/
  | exhausted
  deriving DecidableEq, Repr

/-- The name of a field in a message. -/
def shownField (field : Option String) : String := (Value.optionalText field).shown

/-- The wording of a fault. -/
def CodecFault.message : CodecFault → String
  | encoding field reason =>
    let f := shownField field
    match reason with
    | .notInteger t => "BigInt: field " ++ f ++ " expects an integer, got " ++ t
    | .notIntegral s => "BigInt: field " ++ f ++ " got a non-integer value " ++ s
    | .notHexText t => "Bytes: field " ++ f ++ " only accepts hex text, got " ++ t
    | .badHexText s => "Bytes: field " ++ f ++ " only accepts even-length hex text, got " ++ s
    | .notBinary t => "Bytes: field " ++ f ++ " read a " ++ t ++ ", expected binary"
  | integer fault => fault.message
  | notANumber => "cannot convert NaN to integer"
  | infinite => "cannot convert Infinity to integer"
  | exhausted => ""

/-! ## Big integers -/

/-- The decimal text of an integer that a value gives; the value itself is shown if there is none. -/
def integerText (field : Option String) (v : Value) (n : Option Int) : Except CodecFault Value :=
  match n.bind fun n => (Text.writeInteger n).toOption with
  | some s => .ok (.text s)
  | none => .error (.encoding field (.notIntegral v.shown))

/-- The integer of a decimal whose text is within the limit; larger ones have no text anyway. -/
def smallInteger? (d : Decimal) : Option Int :=
  match d with
  | .finite _ coefficient exponent => if exponent > Int.ofNat Text.maxDigits then
      (if coefficient == 0 then some 0 else none) else d.toInt?
  | _ => none

/-- A host value of a big integer field for the database: an integer, or text or a decimal that denotes
one. -/
def bigIntegerToDatabase [Capacity] (field : Option String) (v : Value) : Except CodecFault Value :=
  match v with
  | .null => .ok .null
  | .int n =>
    match Text.writeInteger n with
    | .ok s => .ok (.text s)
    -- the message would show the number, whose text is refused in turn
    | .error fault => .error (.integer fault)
  | .text s => integerText field v (Text.readInteger s).toOption
  | .decimal d =>
    -- building the integer fails before its text is refused
    if d.exhausts then .error .exhausted else integerText field v (smallInteger? d)
  | v => .error (.encoding field (.notInteger v.typeName))

/-- A database value of a big integer field for the host: a decimal is cut to an integer, and any other
value is read through its text. -/
def bigIntegerFromDatabase [Capacity] (v : Value) : Except CodecFault Value :=
  match v with
  | .null => .ok .null
  | .decimal (.finite negative coefficient exponent) =>
    if (Decimal.finite negative coefficient exponent).exhausts then .error .exhausted
    else .ok (.int (Decimal.truncate negative coefficient exponent))
  | .decimal (.nan _ _ _) => .error .notANumber
  | .decimal (.infinite _) => .error .infinite
  | v =>
    match v.displayed >>= Text.readInteger with
    | .ok n => .ok (.int n)
    | .error fault => .error (.integer fault)

/-! ## Bytes -/

/-- The digits of hexadecimal text after an optional mark. -/
def hexBody : List Char → List Char
  | '0' :: 'x' :: rest => rest
  | '0' :: 'X' :: rest => rest
  | cs => cs

/-- A host value of a bytes field for the database: hexadecimal text. -/
def bytesToDatabase (field : Option String) (v : Value) : Except CodecFault Value :=
  match v with
  | .null => .ok .null
  | .text s =>
    match Text.bytesOfHex? (hexBody s.toList) with
    | some bytes => .ok (.binary .bytes bytes)
    | none => .error (.encoding field (.badHexText v.shown))
  | v => .error (.encoding field (.notHexText v.typeName))

/-- A database value of a bytes field for the host: binary data as lower-case hexadecimal text. -/
def bytesFromDatabase (field : Option String) (v : Value) : Except CodecFault Value :=
  match v with
  | .null => .ok .null
  | .binary _ bytes => .ok (.text (String.ofList (Text.hexOfBytes bytes)))
  | v => .error (.encoding field (.notBinary v.typeName))

/-! ## Both directions -/

/-- A host value for the database. -/
def Codec.toDatabase [Capacity] (c : Codec) (field : Option String) (v : Value) : Except CodecFault Value :=
  match c with
  | bigInteger => bigIntegerToDatabase field v
  | bytes => bytesToDatabase field v
  | identity => .ok v

/-- A database value for the host. -/
def Codec.fromDatabase [Capacity] (c : Codec) (field : Option String) (v : Value) : Except CodecFault Value :=
  match c with
  | bigInteger => bigIntegerFromDatabase v
  | bytes => bytesFromDatabase field v
  | identity => .ok v

end SchemaReconcile
