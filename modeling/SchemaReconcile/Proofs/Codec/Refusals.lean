import SchemaReconcile.Proofs.Codec.BigInteger
import SchemaReconcile.Proofs.Codec.Bytes
import SchemaReconcile.Proofs.Codec.Rows

/-!
# What the codecs refuse

A fault of a codec should name the field whose value it is about.  Sending a record does so but in two cases.
`Accepts` lists the values that each codec sends, and a record is refused at the first field whose value is
`Rejected`, in the name of this field, unless the value is an integer beyond the limit of digits or a decimal
whose integer exhausts memory.  The message about the integer would show it, and so it fails in turn; the
integer of the decimal is never built (`encodeRow_refusal_iff`).  All of this holds for every capacity of memory.

Reading big integers never names the field.  `KeepsNumber` is what a reader should do: give back the
integer that the value denotes, or refuse the value in the name of the field.  It does so for integers and texts
within the limit and for the decimals that equal an integer that memory holds, and for no other value
(`bigInteger_keepsNumber_iff`).  A fraction is cut, and what is not read fails with a fault without a field.
-/

namespace SchemaReconcile

open Plan (IsFirst isFirst_cons_iff)
open Number (Capacity)
open Text (maxDigits)

/-! ## Sending -/

/-- The values that a codec sends. -/
inductive Accepts : Codec → Value → Prop where
  | null (codec : Codec) : Accepts codec .null
  | bigInteger {v : Value} {n : ℤ} (h : Sendable v n) : Accepts .bigInteger v
  | bytes {s : String} {rest : List Char} (hmark : Unmarked s.toList rest) (h : HexText rest) :
      Accepts .bytes (.text s)
  | identity (v : Value) : Accepts .identity v

/-- The record has a value for a field that the codec of the field does not accept. -/
def Rejected (row : Row) (f : RowField) : Prop :=
  ∃ codec v, f.codec = some codec ∧ row.lookup f.name = some v ∧ ¬ Accepts codec v

/-- The record has an integer beyond the limit of digits for a big integer field. -/
def TooLong (row : Row) (f : RowField) : Prop :=
  f.codec = some .bigInteger ∧ ∃ n : ℤ, row.lookup f.name = some (.int n) ∧ 10 ^ maxDigits ≤ n.natAbs

/-- The record has a decimal for a big integer field whose integer exhausts memory. -/
def Exhausts [Capacity] (row : Row) (f : RowField) : Prop :=
  f.codec = some .bigInteger ∧ ∃ d, row.lookup f.name = some (.decimal d) ∧ d.exhausts = true

/-- Where sending a record fails, the fault names the first field whose value is rejected. -/
def NamesRejected (fields : List RowField) (row : Row) : Except CodecFault Row → Prop
  | .ok _ => True
  | .error fault => ∃ f reason, IsFirst (Rejected row) fields f ∧ fault = .encoding (some f.name) reason

/-- An integer beyond the limit is rejected. -/
theorem TooLong.rejected {row : Row} {f : RowField} (h : TooLong row f) : Rejected row f := by
  obtain ⟨hcodec, n, hn, hlimit⟩ := h
  refine ⟨.bigInteger, .int n, hcodec, hn, fun haccept => ?_⟩
  cases haccept with
  | bigInteger hsend => cases hsend with
    | int h => exact absurd h (not_lt.mpr hlimit)

section

variable [Capacity]
variable {codec : Codec} {field : Option String} {v : Value} {row : Row} {f : RowField} {fault : CodecFault}

/-- A codec gives a value for the database exactly to the values that it accepts. -/
theorem exists_toDatabase_iff : (∃ w, codec.toDatabase field v = .ok w) ↔ Accepts codec v := by
  cases codec with
  | bigInteger =>
    simp only [toDatabase_bigInteger, bigIntegerToDatabase_eq_ok_iff]
    constructor
    · rintro ⟨w, ⟨rfl, -⟩ | ⟨n, hsend, -⟩⟩
      · exact .null _
      · exact .bigInteger hsend
    · intro h
      cases h with
      | null => exact ⟨.null, .inl ⟨rfl, rfl⟩⟩
      | bigInteger hsend => exact ⟨_, .inr ⟨_, hsend, rfl⟩⟩
  | bytes =>
    constructor
    · rintro ⟨w, hw⟩
      obtain ⟨rfl, -⟩ | ⟨s, bytes, rfl, hread, -⟩ := bytesToDatabase_eq_ok_iff.mp hw
      · exact .null _
      · exact .bytes (unmarked_iff.mpr rfl) ((exists_bytesOfHex?_iff _).mp ⟨bytes, hread⟩)
    · intro h
      cases h with
      | null => exact ⟨.null, rfl⟩
      | bytes hmark hdigits =>
        rw [← unmarked_iff.mp hmark] at hdigits
        obtain ⟨bytes, hread⟩ := (exists_bytesOfHex?_iff _).mpr hdigits
        exact ⟨_, bytesToDatabase_text.mpr hread⟩
  | identity => exact iff_of_true ⟨v, rfl⟩ (.identity v)

/-- A value of a field is refused exactly when its codec does not accept it. -/
theorem exists_refused_iff : (∃ fault, Refused Codec.toDatabase row f fault) ↔ Rejected row f := by
  constructor
  · rintro ⟨fault, codec, v, hcodec, hv, hfault⟩
    refine ⟨codec, v, hcodec, hv, fun haccept => ?_⟩
    obtain ⟨w, hw⟩ := exists_toDatabase_iff.mpr haccept
    rw [hw] at hfault
    cases hfault
  · rintro ⟨codec, v, hcodec, hv, hreject⟩
    cases hrun : codec.toDatabase (some f.name) v with
    | ok w => exact absurd (exists_toDatabase_iff.mp ⟨w, hrun⟩) hreject
    | error fault => exact ⟨fault, codec, v, hcodec, hv, hrun⟩

/-- A refused value breaks the contract of its field, is an integer beyond the limit or exhausts memory. -/
theorem fault_of_refused (h : Refused Codec.toDatabase row f fault) :
    ((∃ reason, fault = .encoding (some f.name) reason) ∧ ¬ TooLong row f ∧ ¬ Exhausts row f) ∨
      (TooLong row f ∧ fault = .integer .longNumber) ∨ (Exhausts row f ∧ fault = .exhausted) := by
  obtain ⟨codec, v, hcodec, hv, hfault⟩ := h
  cases codec with
  | bigInteger =>
    obtain ⟨hreason, hint, hheld⟩ | ⟨n, rfl, hlimit, rfl⟩ | ⟨d, rfl, hexhausts, rfl⟩ :=
      bigIntegerToDatabase_eq_error hfault
    · refine .inl ⟨hreason, ?_, ?_⟩
      · rintro ⟨-, n, hn, -⟩
        exact hint n (Option.some.inj (hv.symm.trans hn))
      · rintro ⟨-, d, hd, hexhausts⟩
        rw [hheld d (Option.some.inj (hv.symm.trans hd))] at hexhausts
        cases hexhausts
    · exact .inr (.inl ⟨⟨hcodec, n, hv, hlimit⟩, rfl⟩)
    · exact .inr (.inr ⟨⟨hcodec, d, hv, hexhausts⟩, rfl⟩)
  | bytes =>
    refine .inl ⟨bytesToDatabase_eq_error hfault, ?_, ?_⟩
    · rintro ⟨hbig, -⟩
      rw [hcodec] at hbig
      cases hbig
    · rintro ⟨hbig, -⟩
      rw [hcodec] at hbig
      cases hbig
  | identity => cases hfault

end

section

variable [Capacity]
variable {fields : List RowField} {row : Row} {fault : CodecFault} {f : RowField}

/-- Sending a record fails at the first field whose value is rejected. -/
theorem encodeRow_eq_error_iff :
    encodeRow fields row = .error fault ↔
      ∃ f, IsFirst (Rejected row) fields f ∧ Refused Codec.toDatabase row f fault := by
  rw [encodeRow, exchangeRow_eq_error_iff]
  simp only [exists_refused_iff]

/-- No integer is beyond the limit of digits and a decimal. -/
theorem TooLong.not_exhausts (hlong : TooLong row f) : ¬ Exhausts row f := by
  obtain ⟨-, n, hn, -⟩ := hlong
  rintro ⟨-, d, hd, -⟩
  cases hn.symm.trans hd

/-- A decimal that exhausts memory is rejected. -/
theorem Exhausts.rejected (h : Exhausts row f) : Rejected row f := by
  obtain ⟨hcodec, d, hd, hexhausts⟩ := h
  refine ⟨.bigInteger, .decimal d, hcodec, hd, fun haccept => ?_⟩
  cases haccept with
  | bigInteger hsend => cases hsend with
    | decimal hvalue hlimit => exact absurd hlimit (not_lt.mpr (limit_le_of_exhausts hexhausts hvalue))

/-- What sending a record fails with at the first field whose value is rejected. -/
theorem exists_fault_of_isFirst (hfirst : IsFirst (Rejected row) fields f) :
    ∃ fault, encodeRow fields row = .error fault ∧ Refused Codec.toDatabase row f fault := by
  obtain ⟨fault, hfault⟩ := exists_refused_iff.mpr hfirst.holds
  exact ⟨fault, encodeRow_eq_error_iff.mpr ⟨f, hfirst, hfault⟩, hfault⟩

/-- An integer beyond the limit that comes first is refused without its field. -/
theorem encodeRow_of_tooLong (hfirst : IsFirst (Rejected row) fields f) (hf : TooLong row f) :
    encodeRow fields row = .error (.integer .longNumber) := by
  obtain ⟨fault, hrun, hfault⟩ := exists_fault_of_isFirst hfirst
  obtain ⟨-, hnot, -⟩ | ⟨-, rfl⟩ | ⟨hexhausts, -⟩ := fault_of_refused hfault
  · exact absurd hf hnot
  · exact hrun
  · exact absurd hexhausts hf.not_exhausts

/-- A decimal that exhausts memory and comes first is not even refused. -/
theorem encodeRow_of_exhausts (hfirst : IsFirst (Rejected row) fields f) (hf : Exhausts row f) :
    encodeRow fields row = .error .exhausted := by
  obtain ⟨fault, hrun, hfault⟩ := exists_fault_of_isFirst hfirst
  obtain ⟨-, -, hnot⟩ | ⟨hlong, -⟩ | ⟨-, rfl⟩ := fault_of_refused hfault
  · exact absurd hf hnot
  · exact absurd hf hlong.not_exhausts
  · exact hrun

/-- A record is sent exactly when none of its values is rejected.  If it is not sent, then the fault names the
first field whose value is, except where this value is an integer beyond the limit of digits or a decimal that
exhausts memory; each of these two has a fault of its own, without a field. -/
theorem encodeRow_refusal_iff (fields : List RowField) (row : Row) :
    ((∃ encoded, encodeRow fields row = .ok encoded) ↔ ∀ f ∈ fields, ¬ Rejected row f) ∧
      (NamesRejected fields row (encodeRow fields row) ↔
        ∀ f, IsFirst (Rejected row) fields f → ¬ TooLong row f ∧ ¬ Exhausts row f) ∧
      (encodeRow fields row = .error (.integer .longNumber) ↔
        ∃ f, IsFirst (Rejected row) fields f ∧ TooLong row f) ∧
      (encodeRow fields row = .error .exhausted ↔ ∃ f, IsFirst (Rejected row) fields f ∧ Exhausts row f) := by
  refine ⟨?_, ⟨?_, ?_⟩, ⟨?_, ?_⟩, ?_, ?_⟩
  · rw [encodeRow, exists_exchangeRow_iff]
    simp only [exists_refused_iff]
  · intro hnames f hfirst
    constructor
    · intro hf
      rw [encodeRow_of_tooLong hfirst hf] at hnames
      obtain ⟨g, reason, -, hreason⟩ := hnames
      cases hreason
    · intro hf
      rw [encodeRow_of_exhausts hfirst hf] at hnames
      obtain ⟨g, reason, -, hreason⟩ := hnames
      cases hreason
  · intro hnamed
    cases hrun : encodeRow fields row with
    | ok encoded => trivial
    | error fault =>
      obtain ⟨f, hfirst, hfault⟩ := encodeRow_eq_error_iff.mp hrun
      obtain ⟨⟨reason, hreason⟩, -⟩ | ⟨hf, -⟩ | ⟨hf, -⟩ := fault_of_refused hfault
      · exact ⟨f, reason, hfirst, hreason⟩
      · exact absurd hf (hnamed f hfirst).1
      · exact absurd hf (hnamed f hfirst).2
  · intro hrun
    obtain ⟨f, hfirst, hfault⟩ := encodeRow_eq_error_iff.mp hrun
    obtain ⟨⟨reason, hreason⟩, -⟩ | ⟨hf, -⟩ | ⟨-, hfault⟩ := fault_of_refused hfault
    · cases hreason
    · exact ⟨f, hfirst, hf⟩
    · cases hfault
  · rintro ⟨f, hfirst, hf⟩
    exact encodeRow_of_tooLong hfirst hf
  · intro hrun
    obtain ⟨f, hfirst, hfault⟩ := encodeRow_eq_error_iff.mp hrun
    obtain ⟨⟨reason, hreason⟩, -⟩ | ⟨-, hfault⟩ | ⟨hf, -⟩ := fault_of_refused hfault
    · cases hreason
    · cases hfault
    · exact ⟨f, hfirst, hf⟩
  · rintro ⟨f, hfirst, hf⟩
    exact encodeRow_of_exhausts hfirst hf

end

/-- An integer of 4301 digits is refused without its field, and a decimal one with almost `10 ^ 18` zeros is
not even refused. -/
theorem encodeRow_unnamed :
    ¬ NamesRejected [⟨"supply", some .bigInteger⟩] [("supply", .int (10 ^ 4300 : ℕ))]
        (encodeRow [⟨"supply", some .bigInteger⟩] [("supply", .int (10 ^ 4300 : ℕ))]) ∧
      ¬ NamesRejected [⟨"supply", some .bigInteger⟩]
        [("supply", .decimal (.finite false 1 999999999999999999))]
        (encodeRow [⟨"supply", some .bigInteger⟩]
          [("supply", .decimal (.finite false 1 999999999999999999))]) := by
  have hlimit : 10 ^ maxDigits ≤ ((10 ^ 4300 : ℕ) : ℤ).natAbs := by
    rw [Int.natAbs_natCast, maxDigits]
  generalize ((10 ^ 4300 : ℕ) : ℤ) = n at hlimit
  have hlong : TooLong [("supply", .int n)] ⟨"supply", some .bigInteger⟩ := ⟨rfl, n, rfl, hlimit⟩
  have hexhausts : Exhausts [("supply", .decimal (.finite false 1 999999999999999999))]
      ⟨"supply", some .bigInteger⟩ := ⟨rfl, _, rfl, by decide⟩
  constructor
  · rw [encodeRow_of_tooLong (isFirst_cons_iff.mpr (.inl ⟨hlong.rejected, rfl⟩)) hlong]
    rintro ⟨f, reason, -, hreason⟩
    cases hreason
  · rw [encodeRow_of_exhausts (isFirst_cons_iff.mpr (.inl ⟨hexhausts.rejected, rfl⟩)) hexhausts]
    rintro ⟨f, reason, -, hreason⟩
    cases hreason

/-! ## Reading big integers -/

/-- What reading a big integer should give: null for null, the integer that the value denotes, or a fault that
names the field. -/
def KeepsNumber (field : Option String) (v : Value) : Except CodecFault Value → Prop
  | .ok w => v = .null ∧ w = .null ∨ ∃ n, Denotes v n ∧ w = .int n
  | .error fault => ∃ reason, fault = .encoding field reason

/-- No value is refused in the name of its field. -/
theorem fromDatabase_bigInteger_unnamed [Capacity] {field : Option String} {v : Value} {fault : CodecFault}
    (h : Codec.bigInteger.fromDatabase field v = .error fault) (name : Option String)
    (reason : EncodingReason) : fault ≠ .encoding name reason := by
  obtain ⟨cause, rfl⟩ | rfl | rfl | rfl := bigIntegerFromDatabase_eq_error h
  · exact nofun
  · exact nofun
  · exact nofun
  · exact nofun

/-- The number of a value is kept when the value is read as the integer that it denotes. -/
theorem keepsNumber_iff [Capacity] {field : Option String} {v : Value} :
    KeepsNumber field v (Codec.bigInteger.fromDatabase field v) ↔
      v = .null ∨ ∃ n, ReadAs v n ∧ Denotes v n := by
  constructor
  · intro h
    cases hread : Codec.bigInteger.fromDatabase field v with
    | error fault =>
      rw [hread] at h
      obtain ⟨reason, hreason⟩ := h
      exact absurd hreason (fromDatabase_bigInteger_unnamed hread field reason)
    | ok w =>
      rw [hread] at h
      obtain ⟨rfl, -⟩ | ⟨n, hreads, rfl⟩ := bigIntegerFromDatabase_eq_ok_iff.mp hread
      · exact .inl rfl
      · obtain ⟨-, hnull⟩ | ⟨m, hdenotes, hm⟩ := h
        · cases hnull
        · obtain rfl := Value.int.inj hm
          exact .inr ⟨n, hreads, hdenotes⟩
  · rintro (rfl | ⟨n, hreads, hdenotes⟩)
    · exact .inl ⟨rfl, rfl⟩
    · have hread : Codec.bigInteger.fromDatabase field v = .ok (.int n) :=
        bigIntegerFromDatabase_eq_ok_iff.mpr (.inr ⟨n, hreads, rfl⟩)
      rw [hread]
      exact .inr ⟨n, hdenotes, rfl⟩

/-- Reading keeps the number of integers and integer texts within the limit, and of the decimals that equal an
integer that memory holds.  Every other finite decimal whose integer is held is cut to it, and every other value
fails without the name of its field.  In a record it is the same: the integer stands under the name of the field, or the fault names none. -/
theorem bigInteger_keepsNumber_iff [Capacity] (field : Option String) (v : Value) :
    (KeepsNumber field v (Codec.bigInteger.fromDatabase field v) ↔
      v = .null ∨ ∃ n, ReadAs v n ∧ Denotes v n) ∧
    (∀ w, Codec.bigInteger.fromDatabase field v = .ok w ↔
      v = .null ∧ w = .null ∨ ∃ n, ReadAs v n ∧ w = .int n) ∧
    (∀ fault, Codec.bigInteger.fromDatabase field v = .error fault →
      ∀ name reason, fault ≠ .encoding name reason) ∧
    ∀ (fields : List RowField) (row : Row) (f : RowField),
      (fields.map RowField.name).Nodup → (row.map Prod.fst).Nodup →
      f ∈ fields → f.codec = some .bigInteger → row.lookup f.name = some v →
      (∀ result, decodeRow fields row = .ok result →
        v = .null ∧ result.lookup f.name = some .null ∨
          ∃ n, ReadAs v n ∧ result.lookup f.name = some (.int n)) ∧
      (IsFirst (fun g => ∃ fault, Refused Codec.fromDatabase row g fault) fields f →
        ∃ fault, decodeRow fields row = .error fault ∧ ∀ name reason, fault ≠ .encoding name reason) := by
  refine ⟨keepsNumber_iff, fun w => bigIntegerFromDatabase_eq_ok_iff,
    fun fault h => fromDatabase_bigInteger_unnamed h, ?_⟩
  intro fields row f hnames hkeys hf hcodec hv
  constructor
  · intro result hresult
    obtain ⟨w, hw, hvalue⟩ := exists_lookup_exchangeRow hnames hkeys hresult hv
    rw [exchangeValue, (codecOf_eq_some_iff hnames).mpr ⟨f, hf, rfl, hcodec⟩] at hvalue
    obtain ⟨rfl, rfl⟩ | ⟨n, hreads, rfl⟩ := bigIntegerFromDatabase_eq_ok_iff.mp hvalue
    · exact .inl ⟨rfl, hw⟩
    · exact .inr ⟨n, hreads, hw⟩
  · intro hfirst
    obtain ⟨fault, codec, v', hcodec', hv', hfault⟩ := hfirst.holds
    refine ⟨fault, exchangeRow_eq_error_iff.mpr ⟨f, hfirst, codec, v', hcodec', hv', hfault⟩, ?_⟩
    obtain rfl : codec = .bigInteger := Option.some.inj (hcodec'.symm.trans hcodec)
    exact fromDatabase_bigInteger_unnamed hfault

/-- A whole decimal of a record is read as it is, and one that is no number fails without its field. -/
theorem bigInteger_keepsNumber_iff_supply :
    (∃ result n, decodeRow [⟨"id", none⟩, ⟨"supply", some .bigInteger⟩]
        [("supply", .decimal (.finite false 7 2)), ("id", .text "a")] = .ok result ∧
      ReadAs (.decimal (.finite false 7 2)) n ∧ result.lookup "supply" = some (.int n)) ∧
    ∃ fault, decodeRow [⟨"id", none⟩, ⟨"supply", some .bigInteger⟩]
        [("supply", .decimal (.nan false false "")), ("id", .text "a")] = .error fault ∧
      ∀ name reason, fault ≠ .encoding name reason := by
  have hrow := fun d => (bigInteger_keepsNumber_iff (some "supply") (.decimal d)).2.2.2
    [⟨"id", none⟩, ⟨"supply", some .bigInteger⟩] [("supply", .decimal d), ("id", .text "a")]
    ⟨"supply", some .bigInteger⟩ (by decide) (by simp) (by simp) rfl rfl
  constructor
  · obtain ⟨hnull, -⟩ | ⟨n, hreads, hn⟩ := (hrow (.finite false 7 2)).1
      [("supply", .int 700), ("id", .text "a")] rfl
    · cases hnull
    · exact ⟨_, n, rfl, hreads, hn⟩
  · refine (hrow (.nan false false "")).2 (isFirst_cons_iff.mpr (.inr ⟨?_,
      isFirst_cons_iff.mpr (.inl ⟨?_, rfl⟩)⟩))
    · rintro ⟨fault, codec, v, hcodec, -⟩
      cases hcodec
    · exact ⟨.notANumber, .bigInteger, .decimal (.nan false false ""), rfl, rfl, rfl⟩

/-- The half of one and a half is lost. -/
theorem bigInteger_fraction_lost :
    ¬ KeepsNumber (some "supply") (.decimal (.finite false 15 (-1)))
      (Codec.bigInteger.fromDatabase (some "supply") (.decimal (.finite false 15 (-1)))) := by
  have hread : Codec.bigInteger.fromDatabase (some "supply") (.decimal (.finite false 15 (-1))) =
      .ok (.int 1) := rfl
  rw [hread]
  rintro (⟨hnull, -⟩ | ⟨n, hdenotes, hn⟩)
  · cases hnull
  · obtain rfl := Value.int.inj hn
    cases hdenotes with
    | decimal hvalue =>
      have hwhole := Option.some.inj hvalue
      norm_num at hwhole

end SchemaReconcile
