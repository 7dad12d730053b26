/-!
# Base 64

Bytes written with 64 characters and padding.  Other characters are skipped, and a complete padding ends
the text.
-/

namespace SchemaReconcile.Text

/-- The value of a character of the alphabet. -/
def base64Value? (c : Char) : Option Nat :=
  if 'A' ≤ c ∧ c ≤ 'Z' then some (c.toNat - 65)
  else if 'a' ≤ c ∧ c ≤ 'z' then some (c.toNat - 71)
  else if '0' ≤ c ∧ c ≤ '9' then some (c.toNat + 4)
  else if c == '+' then some 62
  else if c == '/' then some 63
  else none

/-- The bytes of a text from a place on: `quad` characters of a group of four have been read, `left` is
the part of them not yet written, and `pads` padding characters have been seen since. -/
def base64From (quad left pads : Nat) : List Char → Option (List UInt8)
  | [] => if quad == 0 then some [] else none
  | c :: rest =>
    if c == '=' then
      if quad ≥ 2 then
        if quad + (pads + 1) ≥ 4 then some [] else base64From quad left (pads + 1) rest
      else base64From quad left pads rest
    else match base64Value? c with
      | none => base64From quad left pads rest
      | some v =>
        match quad with
        | 0 => base64From 1 v 0 rest
        | 1 => (base64From 2 (v % 16) 0 rest).map (UInt8.ofNat (left * 4 + v / 16) :: ·)
        | 2 => (base64From 3 (v % 4) 0 rest).map (UInt8.ofNat (left * 16 + v / 4) :: ·)
        | _ => (base64From 0 0 0 rest).map (UInt8.ofNat (left * 64 + v) :: ·)

/-- The bytes that a text writes. -/
def decodeBase64? (cs : List Char) : Option (List UInt8) := base64From 0 0 0 cs

end SchemaReconcile.Text
