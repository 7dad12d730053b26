import Mathlib.Algebra.Ring.Parity
import SchemaReconcile.Codec.Basic
import SchemaReconcile.Proofs.Naming.Spelling

/-!
# The codec of bytes

Bytes are hexadecimal text to the host.  The codec accepts the texts that are `HexText` behind at most one
mark (`Unmarked`), and nothing else: the mark is removed once, so a second one is not a digit any more, and
no blank, sign or digit of another script is let through.

The library decoder that the text is handed to is laxer than this, since it skips blanks between pairs of
digits.  `lenientBytes?` is that decoder, and on the accepted texts it reads the same bytes
(`lenientBytes?_of_bytesOfHex?`).

Both directions are inverse up to the case of the digits: reading a text and writing the bytes gives the
digits in lower case (`hexOfBytes_of_bytesOfHex?`), and writing bytes and reading the text gives the bytes
(`bytesOfHex?_hexOfBytes`).
-/

namespace SchemaReconcile

open Text (hexDigit hexValue? hexOfBytes bytesOfHex?)

/-- The hexadecimal digits of ASCII. -/
def hexAlphabet : List Char := "0123456789abcdefABCDEF".toList

/-- Hexadecimal text: an even number of digits, or none. -/
structure HexText (cs : List Char) : Prop where
  even : Even cs.length
  digits : ∀ c ∈ cs, c ∈ hexAlphabet

/-- What is left of a text when at most one mark in front of it is removed. -/
inductive Unmarked : List Char → List Char → Prop where
  | lower (rest : List Char) : Unmarked ("0x".toList ++ rest) rest
  | upper (rest : List Char) : Unmarked ("0X".toList ++ rest) rest
  | plain {cs : List Char} (hlower : ¬ "0x".toList <+: cs) (hupper : ¬ "0X".toList <+: cs) : Unmarked cs cs

/-- The bytes written by pairs of hexadecimal digits with blanks between the pairs. -/
def lenientBytes? : List Char → Option (List UInt8)
  | [] => some []
  | [c] => if c ∈ " \t\n\x0b\x0c\r".toList then some [] else none
  | a :: b :: rest =>
    if a ∈ " \t\n\x0b\x0c\r".toList then lenientBytes? (b :: rest)
    else do
      let high ← hexValue? a
      let low ← hexValue? b
      let bytes ← lenientBytes? rest
      return UInt8.ofNat (16 * high + low) :: bytes

/-! ## Marks -/

/-- The codec removes at most one mark. -/
theorem unmarked_iff {cs rest : List Char} : Unmarked cs rest ↔ hexBody cs = rest := by
  constructor
  · intro h
    cases h with
    | lower => rfl
    | upper => rfl
    | plain hlower hupper =>
      unfold hexBody
      split
      · exact absurd ⟨_, rfl⟩ hlower
      · exact absurd ⟨_, rfl⟩ hupper
      · rfl
  · rintro rfl
    unfold hexBody
    split
    · exact .lower _
    · exact .upper _
    · rename_i hlower hupper
      refine .plain ?_ ?_
      · rintro ⟨rest, rfl⟩
        exact hlower rest rfl
      · rintro ⟨rest, rfl⟩
        exact hupper rest rfl

/-! ## Digits -/

/-- Only ASCII characters have a value. -/
theorem toNat_lt_of_hexValue? {c : Char} {n : ℕ} (h : hexValue? c = some n) : c.toNat < 128 := by
  have hbound : ∀ d : Char, c ≤ d → d.toNat < 128 → c.toNat < 128 :=
    fun d hle hd => lt_of_le_of_lt hle hd
  unfold hexValue? at h
  split at h
  · next hc => exact hbound '9' hc.2 (by decide)
  · split at h
    · next hc => exact hbound 'f' hc.2 (by decide)
    · split at h
      · next hc => exact hbound 'F' hc.2 (by decide)
      · cases h

/-- A character with a value is a digit, and the digit of its value is its lower case. -/
theorem digit_of_hexValue? {c : Char} {n : ℕ} (h : hexValue? c = some n) :
    c ∈ hexAlphabet ∧ n < 16 ∧ hexDigit n = c.toLower := by
  have hall : ∀ k < 128, ∀ n ∈ hexValue? (Char.ofNat k),
      Char.ofNat k ∈ hexAlphabet ∧ n < 16 ∧ hexDigit n = (Char.ofNat k).toLower := by decide
  have hc := hall c.toNat (toNat_lt_of_hexValue? h)
  rw [Char.ofNat_toNat] at hc
  exact hc n h

/-- Every digit has a value. -/
theorem exists_hexValue? {c : Char} (h : c ∈ hexAlphabet) : ∃ n, hexValue? c = some n := by
  have hall : hexAlphabet.all (fun c => (hexValue? c).isSome) = true := by decide
  exact Option.isSome_iff_exists.mp (List.all_eq_true.mp hall c h)

/-- The digit of a number below sixteen has that number as its value. -/
theorem hexValue?_hexDigit {n : ℕ} (h : n < 16) : hexValue? (hexDigit n) = some n := by
  have hall : ∀ n < 16, hexValue? (hexDigit n) = some n := by decide
  exact hall n h

/-- A blank is no digit. -/
theorem not_blank_of_hexValue? {c : Char} {n : ℕ} (h : hexValue? c = some n) :
    c ∉ " \t\n\x0b\x0c\r".toList := by
  have hall : " \t\n\x0b\x0c\r".toList.all (fun c => (hexValue? c).isNone) = true := by decide
  intro hc
  have hnone := List.all_eq_true.mp hall c hc
  rw [h] at hnone
  cases hnone

/-! ## Pairs of digits -/

/-- Two digits in front of a text are read as a byte. -/
theorem bytesOfHex?_cons_cons {a b : Char} {rest : List Char} {bytes : List UInt8} :
    bytesOfHex? (a :: b :: rest) = some bytes ↔
      ∃ high low tail, hexValue? a = some high ∧ hexValue? b = some low ∧
        bytesOfHex? rest = some tail ∧ bytes = UInt8.ofNat (16 * high + low) :: tail := by
  rw [bytesOfHex?]
  constructor
  · intro h
    obtain ⟨high, hhigh, h⟩ := Option.bind_eq_some_iff.mp h
    obtain ⟨low, hlow, h⟩ := Option.bind_eq_some_iff.mp h
    obtain ⟨tail, htail, h⟩ := Option.bind_eq_some_iff.mp h
    exact ⟨high, low, tail, hhigh, hlow, htail, (Option.some.inj h).symm⟩
  · rintro ⟨high, low, tail, hhigh, hlow, htail, rfl⟩
    rw [hhigh, hlow, htail]
    rfl

/-- The halves of a byte that two digits give are the values of the digits. -/
theorem halves_of_digits {high low : ℕ} (hhigh : high < 16) (hlow : low < 16) :
    (UInt8.ofNat (16 * high + low)).toNat / 16 = high ∧
      (UInt8.ofNat (16 * high + low)).toNat % 16 = low := by
  rw [UInt8.toNat_ofNat']
  omega

/-- Exactly hexadecimal text is read as bytes. -/
theorem exists_bytesOfHex?_iff (cs : List Char) : (∃ bytes, bytesOfHex? cs = some bytes) ↔ HexText cs := by
  induction cs using Text.bytesOfHex?.induct with
  | case1 => exact ⟨fun _ => ⟨.zero, fun c hc => absurd hc List.not_mem_nil⟩, fun _ => ⟨[], rfl⟩⟩
  | case2 c =>
    have hnot : ¬ HexText [c] := fun h => Nat.not_even_one h.even
    exact iff_of_false (fun ⟨_, h⟩ => nomatch h) hnot
  | case3 a b rest ih =>
    constructor
    · rintro ⟨bytes, h⟩
      obtain ⟨high, low, tail, hhigh, hlow, htail, -⟩ := bytesOfHex?_cons_cons.mp h
      have hrest : HexText rest := ih.mp ⟨tail, htail⟩
      refine ⟨?_, List.forall_mem_cons.mpr ⟨(digit_of_hexValue? hhigh).1,
        List.forall_mem_cons.mpr ⟨(digit_of_hexValue? hlow).1, hrest.digits⟩⟩⟩
      have heven : Even (rest.length + 2) := hrest.even.add even_two
      exact heven
    · intro h
      obtain ⟨ha, hb, hdigits⟩ : a ∈ hexAlphabet ∧ b ∈ hexAlphabet ∧ ∀ c ∈ rest, c ∈ hexAlphabet := by
        simpa only [List.forall_mem_cons] using h.digits
      have heven : Even (rest.length + 2) := h.even
      obtain ⟨high, hhigh⟩ := exists_hexValue? ha
      obtain ⟨low, hlow⟩ := exists_hexValue? hb
      obtain ⟨tail, htail⟩ := ih.mpr ⟨(Nat.even_add.mp heven).mpr even_two, hdigits⟩
      exact ⟨_, bytesOfHex?_cons_cons.mpr ⟨high, low, tail, hhigh, hlow, htail, rfl⟩⟩

/-- Bytes that were read are written in the same digits, in lower case. -/
theorem hexOfBytes_of_bytesOfHex? {cs : List Char} {bytes : List UInt8} (h : bytesOfHex? cs = some bytes) :
    hexOfBytes bytes = cs.map Char.toLower := by
  induction cs using Text.bytesOfHex?.induct generalizing bytes with
  | case1 =>
    cases h
    rfl
  | case2 c => cases h
  | case3 a b rest ih =>
    obtain ⟨high, low, tail, hhigh, hlow, htail, rfl⟩ := bytesOfHex?_cons_cons.mp h
    obtain ⟨-, hhighBound, hhighDigit⟩ := digit_of_hexValue? hhigh
    obtain ⟨-, hlowBound, hlowDigit⟩ := digit_of_hexValue? hlow
    obtain ⟨hupperHalf, hlowerHalf⟩ := halves_of_digits hhighBound hlowBound
    have htailText : tail.flatMap (fun b => [hexDigit (b.toNat / 16), hexDigit (b.toNat % 16)]) =
        rest.map Char.toLower := ih htail
    rw [hexOfBytes, List.flatMap_cons, htailText, hupperHalf, hlowerHalf, hhighDigit, hlowDigit]
    rfl

/-- Bytes that were written are read again. -/
theorem bytesOfHex?_hexOfBytes (bytes : List UInt8) : bytesOfHex? (hexOfBytes bytes) = some bytes := by
  induction bytes with
  | nil => rfl
  | cons b bytes ih =>
    have hbound : b.toNat < 256 := b.toNat_lt
    have hhigh : hexValue? (hexDigit (b.toNat / 16)) = some (b.toNat / 16) :=
      hexValue?_hexDigit (by omega)
    have hlow : hexValue? (hexDigit (b.toNat % 16)) = some (b.toNat % 16) :=
      hexValue?_hexDigit (by omega)
    have hbyte : UInt8.ofNat (16 * (b.toNat / 16) + b.toNat % 16) = b := by
      rw [Nat.div_add_mod, UInt8.ofNat_toNat]
    exact bytesOfHex?_cons_cons.mpr ⟨_, _, bytes, hhigh, hlow, ih, by rw [hbyte]⟩

/-- The laxer decoder reads the same bytes from hexadecimal text. -/
theorem lenientBytes?_of_bytesOfHex? {cs : List Char} {bytes : List UInt8}
    (h : bytesOfHex? cs = some bytes) : lenientBytes? cs = some bytes := by
  induction cs using Text.bytesOfHex?.induct generalizing bytes with
  | case1 => exact h
  | case2 c => cases h
  | case3 a b rest ih =>
    obtain ⟨high, low, tail, hhigh, hlow, htail, rfl⟩ := bytesOfHex?_cons_cons.mp h
    rw [lenientBytes?, if_neg (not_blank_of_hexValue? hhigh), hhigh, hlow, ih htail]
    rfl

/-- Text of written bytes has no mark. -/
theorem hexBody_hexOfBytes (bytes : List UInt8) : hexBody (hexOfBytes bytes) = hexOfBytes bytes := by
  rw [← unmarked_iff]
  have hdigits : HexText (hexOfBytes bytes) :=
    (exists_bytesOfHex?_iff _).mp ⟨bytes, bytesOfHex?_hexOfBytes bytes⟩
  have hno : ∀ mark ∈ ["0x".toList, "0X".toList], ¬ mark <+: hexOfBytes bytes := by
    have hletter : ∀ mark ∈ ["0x".toList, "0X".toList], mark.all hexAlphabet.contains = false := by decide
    intro mark hmark hstart
    have hall : mark.all hexAlphabet.contains = true :=
      List.all_eq_true.mpr fun c hc => List.contains_iff_mem.mpr (hdigits.digits c (hstart.mem hc))
    rw [hletter mark hmark] at hall
    cases hall
  exact .plain (hno "0x".toList (by decide)) (hno "0X".toList (by decide))

/-! ## The codec -/

/-- The lower case of hexadecimal text is that of each digit. -/
theorem lower_of_hexText {cs : List Char} (h : HexText cs) : Text.lower cs = cs.map Char.toLower := by
  have hascii : hexAlphabet.all (fun c => c.toNat < 128) = true := by decide
  exact Naming.lowerAfter_of_ascii [] fun c hc =>
    of_decide_eq_true (List.all_eq_true.mp hascii c (h.digits c hc))

/-- A text goes to the database as the bytes that are read behind its mark. -/
theorem bytesToDatabase_text {field : Option String} {s : String} {bytes : List UInt8} :
    bytesToDatabase field (.text s) = .ok (.binary .bytes bytes) ↔
      bytesOfHex? (hexBody s.toList) = some bytes := by
  rw [bytesToDatabase]
  cases bytesOfHex? (hexBody s.toList) with
  | none => exact iff_of_false nofun nofun
  | some read =>
    refine ⟨fun h => ?_, fun h => ?_⟩
    · cases h
      rfl
    · cases h
      rfl

/-- A value goes to the database when it is null or a text whose digits are read. -/
theorem bytesToDatabase_eq_ok_iff {field : Option String} {v w : Value} :
    bytesToDatabase field v = .ok w ↔
      v = .null ∧ w = .null ∨
        ∃ s bytes, v = .text s ∧ bytesOfHex? (hexBody s.toList) = some bytes ∧ w = .binary .bytes bytes := by
  constructor
  · intro h
    unfold bytesToDatabase at h
    split at h
    · exact .inl ⟨rfl, (Except.ok.inj h).symm⟩
    · next s =>
      split at h
      · next bytes hread => exact .inr ⟨s, bytes, rfl, hread, (Except.ok.inj h).symm⟩
      · cases h
    · cases h
  · rintro (⟨rfl, rfl⟩ | ⟨s, bytes, rfl, hread, rfl⟩)
    · rfl
    · exact bytesToDatabase_text.mpr hread

/-- A value that does not go to the database breaks the contract of its field. -/
theorem bytesToDatabase_eq_error {field : Option String} {v : Value} {fault : CodecFault}
    (h : bytesToDatabase field v = .error fault) : ∃ reason, fault = .encoding field reason := by
  unfold bytesToDatabase at h
  split at h
  · cases h
  · split at h
    · cases h
    · exact ⟨_, (Except.error.inj h).symm⟩
  · exact ⟨_, (Except.error.inj h).symm⟩

/-- The texts that go to the database as bytes are exactly hexadecimal text behind at most one mark; the
bytes come back as this text in lower case, without the mark.  Every other value but null is refused for
breaking the contract of its field.  Bytes of any form come back from the text they are shown as. -/
theorem bytes_language [Number.Capacity] (field : Option String) :
    (∀ (s : String) (rest : List Char), Unmarked s.toList rest →
      ((∃ bytes, Codec.bytes.toDatabase field (.text s) = .ok (.binary .bytes bytes)) ↔ HexText rest) ∧
      ∀ bytes, Codec.bytes.toDatabase field (.text s) = .ok (.binary .bytes bytes) →
        Codec.bytes.fromDatabase field (.binary .bytes bytes) =
          .ok (.text (String.ofList (Text.lower rest))) ∧
        lenientBytes? rest = some bytes) ∧
    (∀ v : Value, v ≠ .null →
      (∀ (s : String) (rest : List Char), v = .text s → Unmarked s.toList rest → ¬ HexText rest) →
      ∃ reason, Codec.bytes.toDatabase field v = .error (.encoding field reason)) ∧
    ∀ (kind : BinaryKind) (bytes : List UInt8), ∃ s,
      Codec.bytes.fromDatabase field (.binary kind bytes) = .ok (.text s) ∧
      Codec.bytes.toDatabase field (.text s) = .ok (.binary .bytes bytes) := by
  refine ⟨fun s rest hrest => ⟨?_, fun bytes h => ?_⟩, fun v hnull hother => ?_, fun kind bytes => ?_⟩
  · obtain rfl : hexBody s.toList = rest := unmarked_iff.mp hrest
    rw [← exists_bytesOfHex?_iff]
    exact exists_congr fun bytes => bytesToDatabase_text
  · have hread : bytesOfHex? rest = some bytes := by
      rw [← unmarked_iff.mp hrest]
      exact bytesToDatabase_text.mp h
    have hlower : Text.lower rest = hexOfBytes bytes := by
      rw [hexOfBytes_of_bytesOfHex? hread]
      exact lower_of_hexText ((exists_bytesOfHex?_iff rest).mp ⟨bytes, hread⟩)
    rw [hlower]
    exact ⟨rfl, lenientBytes?_of_bytesOfHex? hread⟩
  · cases v with
    | null => exact absurd rfl hnull
    | text s =>
      have hnot : ¬ HexText (hexBody s.toList) := hother s _ rfl (unmarked_iff.mpr rfl)
      have hnone : bytesOfHex? (hexBody s.toList) = none := by
        by_contra hread
        exact hnot ((exists_bytesOfHex?_iff _).mp (Option.ne_none_iff_exists'.mp hread))
      refine ⟨.badHexText (Value.text s).shown, ?_⟩
      simp only [Codec.toDatabase, bytesToDatabase, hnone]
    | _ => exact ⟨_, rfl⟩
  · refine ⟨String.ofList (hexOfBytes bytes), rfl, bytesToDatabase_text.mpr ?_⟩
    rw [String.toList_ofList, hexBody_hexOfBytes, bytesOfHex?_hexOfBytes]

/-- Digits of both cases behind a mark are accepted, and come back in lower case. -/
theorem bytes_language_mixed :
    Unmarked "0XdeadBEEF".toList "deadBEEF".toList ∧
    (∃ bytes, Codec.bytes.toDatabase (some "hash") (.text "0XdeadBEEF") = .ok (.binary .bytes bytes) ∧
      Codec.bytes.fromDatabase (some "hash") (.binary .bytes bytes) = .ok (.text "deadbeef")) ∧
    ∃ reason, Codec.bytes.toDatabase (some "hash") (.text "0x0x00") =
      .error (.encoding (some "hash") reason) := by
  have hmark : Unmarked "0XdeadBEEF".toList "deadBEEF".toList := .upper _
  have hall : "deadBEEF".toList.all hexAlphabet.contains = true := by decide
  have hdigits : HexText "deadBEEF".toList :=
    ⟨by decide, fun c hc => List.contains_iff_mem.mp (List.all_eq_true.mp hall c hc)⟩
  obtain ⟨hlanguage, hround⟩ := (bytes_language (some "hash")).1 _ _ hmark
  obtain ⟨bytes, hbytes⟩ := hlanguage.mpr hdigits
  refine ⟨hmark, ⟨bytes, hbytes, (hround bytes hbytes).1⟩, ?_⟩
  refine (bytes_language (some "hash")).2.1 _ (fun h => by cases h) fun s rest hs hrest htext => ?_
  obtain rfl : "0x0x00" = s := Value.text.inj hs
  have hletter : 'x' ∈ rest := by
    rw [← unmarked_iff.mp hrest]
    decide
  exact absurd (htext.digits _ hletter) (by decide)

end SchemaReconcile
