import SchemaReconcile.Text.Hex

/-!
# UTF-8

The text of bytes in UTF-8, refused for every sequence that is not the shortest form of a character.
-/

namespace SchemaReconcile.Text

/-- What is wrong with a sequence of bytes. -/
inductive Utf8FaultKind where
  | start
  | continuation
  | cutOff
  deriving DecidableEq, Repr, Inhabited

/-- A sequence of bytes that is no character, with its position. -/
structure Utf8Fault where
  position : Nat
  bytes : List UInt8
  kind : Utf8FaultKind
  deriving DecidableEq, Repr, Inhabited

/-- The wording of a kind of fault. -/
def Utf8FaultKind.wording : Utf8FaultKind → String
  | start => "invalid start byte"
  | continuation => "invalid continuation byte"
  | cutOff => "unexpected end of data"

/-- The wording of a fault. -/
def Utf8Fault.message (f : Utf8Fault) : String :=
  let place := match f.bytes with
    | [b] => "byte 0x" ++ String.ofList (hexOfBytes [b]) ++ " in position " ++ toString f.position
    | bytes => "bytes in position " ++ toString f.position ++ "-" ++
        toString (f.position + bytes.length - 1)
  "'utf-8' codec can't decode " ++ place ++ ": " ++ f.kind.wording

/-- Whether a byte goes on with a character. -/
def isContinuation (b : UInt8) : Bool := 0x80 ≤ b && b < 0xC0

/-- The last six bits of a byte. -/
def lowBits (b : UInt8) : Nat := b.toNat % 64

/-- Whether a second byte goes on with a character of three or more bytes: shorter forms, surrogates and
numbers beyond the last character are left out. -/
def isSecond (first second : UInt8) : Bool :=
  isContinuation second && !(first == 0xE0 && second < 0xA0) && !(first == 0xED && second > 0x9F) &&
    !(first == 0xF0 && second < 0x90) && !(first == 0xF4 && second > 0x8F)

/-- The text of bytes from a position on. -/
def decodeFrom (position : Nat) : List UInt8 → Except Utf8Fault (List Char)
  | [] => .ok []
  | a :: rest =>
    let fault (kind : Utf8FaultKind) (bytes : List UInt8) : Except Utf8Fault (List Char) :=
      .error ⟨position, bytes, kind⟩
    if a < 0x80 then (Char.ofNat a.toNat :: ·) <$> decodeFrom (position + 1) rest
    else if a < 0xC2 || a > 0xF4 then fault .start [a]
    else match rest with
      | [] => fault .cutOff [a]
      | b :: rest =>
        if a < 0xE0 then
          if isContinuation b then
            (Char.ofNat ((a.toNat - 0xC0) * 64 + lowBits b) :: ·) <$> decodeFrom (position + 2) rest
          else fault .continuation [a]
        else if !isSecond a b then fault .continuation [a]
        else match rest with
          | [] => fault .cutOff [a, b]
          | c :: rest =>
            if !isContinuation c then fault .continuation [a, b]
            else if a < 0xF0 then
              (Char.ofNat (((a.toNat - 0xE0) * 64 + lowBits b) * 64 + lowBits c) :: ·) <$>
                decodeFrom (position + 3) rest
            else match rest with
              | [] => fault .cutOff [a, b, c]
              | d :: rest =>
                if !isContinuation d then fault .continuation [a, b, c]
                else
                  (Char.ofNat ((((a.toNat - 0xF0) * 64 + lowBits b) * 64 + lowBits c) * 64 +
                    lowBits d) :: ·) <$> decodeFrom (position + 4) rest

/-- The text of bytes. -/
def decodeUtf8 (bytes : List UInt8) : Except Utf8Fault (List Char) := decodeFrom 0 bytes

/-- The text of bytes, if they are one. -/
def decodeUtf8? (bytes : List UInt8) : Option (List Char) := (decodeUtf8 bytes).toOption

end SchemaReconcile.Text
