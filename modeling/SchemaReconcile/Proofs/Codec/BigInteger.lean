import SchemaReconcile.Codec.Basic
import SchemaReconcile.Proofs.Number.Decimal

/-!
# The codec of big integers

An integer, a text or a decimal may denote an integer (`Denotes`).  The codec sends what denotes an integer
within the limit of digits (`Sendable`), always as the plain text of the integer, and refuses every other
value (`bigIntegerToDatabase_eq_ok_iff`).

Reading is not the inverse of a check.  `ReadAs` is what comes back: integers and texts within the limit are
read as what they denote, and every finite decimal whose integer memory holds is cut to this integer, fractions
included (`bigIntegerFromDatabase_eq_ok_iff`).  The texts of all other values have a character that no integer text
has, or a minus behind a digit, so they are never read.

`bigInteger_canonical` puts the two directions together: sending yields the one plain text of the integer,
which is read back, as text and as decimal, and sent again without change.
-/

namespace SchemaReconcile

open Number (Decimal Binary64 Capacity)
open Text (Writes Plain Foreign maxDigits)

/-- The integer that a value denotes: itself, the one that a text writes, or the one that a decimal equals. -/
inductive Denotes : Value → ℤ → Prop where
  | int (n : ℤ) : Denotes (.int n) n
  | text {s : String} {digits : List ℕ} {n : ℤ} (h : Writes s.toList digits n) : Denotes (.text s) n
  | decimal {d : Decimal} {n : ℤ} (h : d.value? = some (n : ℚ)) : Denotes (.decimal d) n

/-- The value denotes an integer and its conversions stay within the limit of digits. -/
inductive Sendable : Value → ℤ → Prop where
  | int {n : ℤ} (h : n.natAbs < 10 ^ maxDigits) : Sendable (.int n) n
  | text {s : String} {digits : List ℕ} {n : ℤ} (h : Writes s.toList digits n)
      (hlimit : digits.length ≤ maxDigits) : Sendable (.text s) n
  | decimal {d : Decimal} {n : ℤ} (h : d.value? = some (n : ℚ)) (hlimit : n.natAbs < 10 ^ maxDigits) :
      Sendable (.decimal d) n

/-- The integer as which a database value is read. -/
inductive ReadAs [Capacity] : Value → ℤ → Prop where
  | int {n : ℤ} (h : n.natAbs < 10 ^ maxDigits) : ReadAs (.int n) n
  | text {s : String} {digits : List ℕ} {n : ℤ} (h : Writes s.toList digits n)
      (hlimit : digits.length ≤ maxDigits) : ReadAs (.text s) n
  | decimal {d : Decimal} {q : ℚ} (h : d.value? = some q) (hheld : d.exhausts = false) :
      ReadAs (.decimal d) (Decimal.towardZero q)

/-- A sendable value denotes its integer. -/
theorem Sendable.denotes {v : Value} {n : ℤ} (h : Sendable v n) : Denotes v n := by
  cases h with
  | int h => exact .int n
  | text h hlimit => exact .text h
  | decimal h hlimit => exact .decimal h

/-- A value denotes at most one integer. -/
theorem Denotes.unique {v : Value} {m n : ℤ} (hm : Denotes v m) (hn : Denotes v n) : m = n := by
  cases hm with
  | int => cases hn; rfl
  | text hm => cases hn with | text hn => exact hm.unique hn
  | decimal hm => cases hn with | decimal hn => exact Int.cast_inj.mp (Option.some.inj (hm.symm.trans hn))

/-- The integer of a sendable value is within the limit. -/
theorem Sendable.natAbs_lt {v : Value} {n : ℤ} (h : Sendable v n) : n.natAbs < 10 ^ maxDigits := by
  cases h with
  | int h => exact h
  | text h hlimit => exact h.natAbs_lt.trans_le (Nat.pow_le_pow_right (by decide) hlimit)
  | decimal h hlimit => exact hlimit

/-- The codec of big integers sends as described here. -/
theorem toDatabase_bigInteger [Capacity] (field : Option String) (v : Value) :
    Codec.bigInteger.toDatabase field v = bigIntegerToDatabase field v := rfl

/-! ## Sending -/

/-- The integer of a decimal within the limit is found, and it is the only one. -/
theorem smallInteger?_eq_some_iff {d : Decimal} {n : ℤ} (hn : n.natAbs < 10 ^ maxDigits) :
    smallInteger? d = some n ↔ d.value? = some (n : ℚ) := by
  rw [← Decimal.toInt?_eq_some_iff]
  cases d with
  | infinite negative => exact iff_of_false nofun nofun
  | nan negative signaling payload => exact iff_of_false nofun nofun
  | finite negative coefficient exponent =>
    rw [smallInteger?]
    split
    · next hlarge =>
      constructor
      · intro h
        obtain ⟨hzero, hn⟩ := Option.ite_none_right_eq_some.mp h
        rw [eq_of_beq hzero, Decimal.toInt?_zero]
        exact hn
      · intro h
        obtain rfl := Decimal.eq_zero_of_large_exponent h hlarge hn
        rw [if_pos (beq_self_eq_true 0), ← h, Decimal.toInt?_zero]
    · rfl

/-- The integer of a decimal that exhausts memory is beyond the limit of digits. -/
theorem limit_le_of_exhausts [Capacity] {d : Decimal} {n : ℤ} (h : d.exhausts = true)
    (hvalue : d.value? = some (n : ℚ)) : 10 ^ maxDigits ≤ n.natAbs := by
  cases d with
  | infinite negative => cases h
  | nan negative signaling payload => cases h
  | finite negative coefficient exponent =>
    obtain ⟨hexponent, hlong⟩ := Decimal.exhausts_iff.mp h
    have hn : Decimal.truncate negative coefficient exponent = n := by
      rw [← Int.cast_inj (α := ℚ), Decimal.truncate_of_nonneg _ _ hexponent.le]
      exact Option.some.inj hvalue
    rw [← hn]
    exact (Nat.pow_le_pow_right (by decide) Capacity.maxDigits_le).trans hlong

/-- A decimal whose integer is within the limit of digits does not exhaust memory. -/
theorem not_exhausts_of_value? [Capacity] {d : Decimal} {n : ℤ} (hvalue : d.value? = some (n : ℚ))
    (hn : n.natAbs < 10 ^ maxDigits) : d.exhausts = false := by
  rw [← Bool.not_eq_true]
  intro h
  exact absurd hn (not_lt.mpr (limit_le_of_exhausts h hvalue))

/-- A number that is sent is within the limit and becomes its plain text. -/
theorem integerText_eq_ok_iff {field : Option String} {v w : Value} {m : Option ℤ} :
    integerText field v m = .ok w ↔
      ∃ n, m = some n ∧ n.natAbs < 10 ^ maxDigits ∧ w = .text (toString n) := by
  cases m with
  | none =>
    refine iff_of_false nofun ?_
    rintro ⟨n, hn, -⟩
    cases hn
  | some n =>
    rw [integerText, Option.bind_some]
    cases hwrite : Text.writeInteger n with
    | error fault =>
      refine iff_of_false nofun ?_
      rintro ⟨n', hn, hlimit, -⟩
      obtain rfl := Option.some.inj hn
      rw [Text.writeInteger_eq_ok_iff.mpr ⟨hlimit, rfl⟩] at hwrite
      cases hwrite
    | ok s =>
      obtain ⟨hlimit, rfl⟩ := Text.writeInteger_eq_ok_iff.mp hwrite
      constructor
      · intro h
        exact ⟨n, rfl, hlimit, (Except.ok.inj h).symm⟩
      · rintro ⟨n', hn, -, rfl⟩
        obtain rfl := Option.some.inj hn
        rfl

/-- A decimal that memory holds is sent as the text of its integer. -/
theorem bigIntegerToDatabase_decimal [Capacity] {field : Option String} {d : Decimal}
    (hheld : d.exhausts = false) :
    bigIntegerToDatabase field (.decimal d) = integerText field (.decimal d) (smallInteger? d) :=
  if_neg (Bool.not_eq_true _ ▸ hheld)

/-- A value is sent when it is null or denotes an integer within the limit, as the plain text of the
integer. -/
theorem bigIntegerToDatabase_eq_ok_iff [Capacity] {field : Option String} {v w : Value} :
    bigIntegerToDatabase field v = .ok w ↔
      v = .null ∧ w = .null ∨ ∃ n, Sendable v n ∧ w = .text (toString n) := by
  constructor
  · intro h
    unfold bigIntegerToDatabase at h
    split at h
    · exact .inl ⟨rfl, (Except.ok.inj h).symm⟩
    · next n =>
      split at h
      · next s hwrite =>
        obtain ⟨hlimit, rfl⟩ := Text.writeInteger_eq_ok_iff.mp hwrite
        exact .inr ⟨n, .int hlimit, (Except.ok.inj h).symm⟩
      · cases h
    · next s =>
      obtain ⟨n, hread, hlimit, rfl⟩ := integerText_eq_ok_iff.mp h
      obtain ⟨digits, hwrites, hlength⟩ := Text.readInteger_eq_ok_iff.mp (eq_ok_of_toOption hread)
      exact .inr ⟨n, .text hwrites hlength, rfl⟩
    · next d =>
      split at h
      · cases h
      · obtain ⟨n, hsmall, hlimit, rfl⟩ := integerText_eq_ok_iff.mp h
        exact .inr ⟨n, .decimal ((smallInteger?_eq_some_iff hlimit).mp hsmall) hlimit, rfl⟩
    · cases h
  · rintro (⟨rfl, rfl⟩ | ⟨n, hsend, rfl⟩)
    · rfl
    · have hlimit := hsend.natAbs_lt
      cases hsend with
      | int =>
        unfold bigIntegerToDatabase
        simp only [Text.writeInteger_eq_ok_iff.mpr ⟨hlimit, rfl⟩]
      | text hwrites hlength =>
        have hread := Text.readInteger_eq_ok_iff.mpr ⟨_, hwrites, hlength⟩
        exact integerText_eq_ok_iff.mpr ⟨n, by rw [hread]; rfl, hlimit, rfl⟩
      | decimal hvalue =>
        rw [bigIntegerToDatabase_decimal (not_exhausts_of_value? hvalue hlimit)]
        exact integerText_eq_ok_iff.mpr ⟨n, (smallInteger?_eq_some_iff hlimit).mpr hvalue, hlimit, rfl⟩

/-- A value that is not sent breaks the contract of its field, unless it is an integer beyond the limit of digits
or a decimal that exhausts memory. -/
theorem bigIntegerToDatabase_eq_error [Capacity] {field : Option String} {v : Value} {fault : CodecFault}
    (h : bigIntegerToDatabase field v = .error fault) :
    ((∃ reason, fault = .encoding field reason) ∧ (∀ n, v ≠ .int n) ∧
        ∀ d, v = .decimal d → d.exhausts = false) ∨
      (∃ n : ℤ, v = .int n ∧ 10 ^ maxDigits ≤ n.natAbs ∧ fault = .integer .longNumber) ∨
      ∃ d, v = .decimal d ∧ d.exhausts = true ∧ fault = .exhausted := by
  have htext : ∀ m, integerText field v m = .error fault → ∃ reason, fault = .encoding field reason := by
    intro m h
    unfold integerText at h
    split at h
    · cases h
    · exact ⟨_, (Except.error.inj h).symm⟩
  unfold bigIntegerToDatabase at h
  split at h
  · cases h
  · next n =>
    split at h
    · cases h
    · next fault' hwrite =>
      obtain ⟨hlimit, rfl⟩ := Text.writeInteger_eq_error_iff.mp hwrite
      exact .inr (.inl ⟨n, rfl, hlimit, (Except.error.inj h).symm⟩)
  · exact .inl ⟨htext _ h, nofun, nofun⟩
  · next d =>
    split at h
    · next hexhausts => exact .inr (.inr ⟨d, rfl, hexhausts, (Except.error.inj h).symm⟩)
    · next hheld =>
      refine .inl ⟨htext _ h, nofun, ?_⟩
      rintro _ ⟨⟩
      exact Bool.eq_false_of_not_eq_true hheld
  · next hint _ hdecimal =>
    exact .inl ⟨⟨_, (Except.error.inj h).symm⟩, hint, fun d hd => absurd hd (hdecimal d)⟩

/-! ## Reading -/

/-- The digits of a number in positional or scientific form have a point or an exponent. -/
theorem exists_foreign_digitsText (d : Binary64.Digits) : ∃ c ∈ d.text.toList, Foreign c := by
  have hpoint : Foreign '.' := by decide
  have hexponent : Foreign 'e' := by decide
  unfold Binary64.Digits.text
  rw [String.toList_ofList]
  dsimp only
  split
  · exact ⟨'e', by simp, hexponent⟩
  · split
    · exact ⟨'.', by simp, hpoint⟩
    · split
      · exact ⟨'.', by simp, hpoint⟩
      · exact ⟨'.', by simp, hpoint⟩

/-- The text of a number of the binary format is no integer text. -/
theorem exists_foreign_floatText (x : Binary64) : ∃ c ∈ x.text.toList, Foreign c := by
  cases x with
  | nan => exact ⟨'n', by decide, by decide⟩
  | infinite negative => exact ⟨'i', by cases negative <;> decide, by decide⟩
  | finite negative m e =>
    have hmagnitude : ∃ c ∈ (if m == 0 then "0.0" else ((Binary64.shortest m e).trimmed 20).text).toList,
        Foreign c := by
      split
      · exact ⟨'.', by decide, by decide⟩
      · exact exists_foreign_digitsText _
    obtain ⟨c, hc, hforeign⟩ := hmagnitude
    refine ⟨c, ?_, hforeign⟩
    unfold Binary64.text
    cases negative
    · exact hc
    · dsimp only
      rw [if_pos rfl, String.toList_append]
      exact List.mem_append_right _ hc

/-- A number with a fixed number of digits starts with one. -/
theorem exists_paddedDigits (width n : ℕ) :
    ∃ c cs d, paddedDigits (width + 1) n = c :: cs ∧ Text.decimalValue? c = some d := by
  induction width generalizing n with
  | zero =>
    have hdigit : ∀ k < 10, Text.decimalValue? (Char.ofNat (48 + k)) = some k := by decide
    exact ⟨_, [], _, rfl, hdigit _ (Nat.mod_lt n (by decide))⟩
  | succ width ih =>
    obtain ⟨c, cs, d, hdigits, hc⟩ := ih (n / 10)
    exact ⟨c, _, d, by rw [paddedDigits, hdigits, List.cons_append], hc⟩

/-- A day is written as digits with a minus behind them. -/
theorem exists_iso (date : CivilDate) : ∃ c cs d, date.iso.toList = c :: cs ∧
    Text.decimalValue? c = some d ∧ '-' ∈ cs := by
  obtain ⟨c, cs, d, hyear, hc⟩ := exists_paddedDigits 3 date.year
  refine ⟨c, cs ++ ("-" ++ padded 2 date.month ++ "-" ++ padded 2 date.day).toList, d, ?_, hc, by simp⟩
  simp only [CivilDate.iso, padded, String.toList_append, String.toList_ofList, hyear, List.append_assoc,
    List.cons_append]

/-- A value that is not null, an integer, a text or a decimal has a text that writes no integer. -/
theorem not_writes_display {v : Value} (hnull : v ≠ .null) (hint : ∀ n, v ≠ .int n)
    (htext : ∀ s, v ≠ .text s) (hdecimal : ∀ d, v ≠ .decimal d) {digits : List ℕ} {n : ℤ} :
    ¬ Writes v.display.toList digits n := by
  have hforeign : ∀ c, Foreign c → c ∈ v.display.toList → ¬ Writes v.display.toList digits n :=
    fun c h hc => Text.not_writes_of_foreign hc h
  cases v with
  | null => exact absurd rfl hnull
  | int n => exact absurd rfl (hint n)
  | text s => exact absurd rfl (htext s)
  | decimal d => exact absurd rfl (hdecimal d)
  | bool b => exact hforeign 'e' (by decide) (by cases b <;> decide)
  | float x =>
    obtain ⟨c, hc, h⟩ := exists_foreign_floatText x
    exact hforeign c h hc
  | binary kind bytes =>
    cases kind with
    | bytes =>
      exact hforeign 'b' (by decide) (by simp [Value.display, Value.shown, Value.shownBinary, Text.quotedBytes])
    | bytearray =>
      exact hforeign 'b' (by decide) (by simp [Value.display, Value.shown, Value.shownBinary])
    | memoryview =>
      exact hforeign 'm' (by decide) (by simp [Value.display, Value.shown, Value.shownBinary])
  | list items => exact hforeign '[' (by decide) (by simp [Value.display, Value.shown])
  | tuple items =>
    refine hforeign '(' (by decide) ?_
    simp only [Value.display, Value.shown]
    split <;> simp
  | set items =>
    simp only [Value.display, Value.shown] at hforeign ⊢
    split at hforeign
    · exact hforeign '(' (by decide) (by decide)
    · exact hforeign '\x7b' (by decide) (by simp)
  | dict entries => exact hforeign '\x7b' (by decide) (by simp [Value.display, Value.shown])
  | date d =>
    -- all characters of a day may stand in integer text; what rules it out is where the minus stands
    obtain ⟨c, cs, value, hiso, hc, hminus⟩ := exists_iso d
    simp only [Value.display]
    rw [hiso]
    exact Text.not_writes_of_minus hc hminus
  | time t => exact hforeign ':' (by decide) (by simp [Value.display, CivilTime.isoWith])

/-- An integer is shown on its own when it is within the limit. -/
theorem displayed_int {n : ℤ} {s : String} :
    (Value.int n).displayed = .ok s ↔ n.natAbs < 10 ^ maxDigits ∧ s = toString n := by
  rw [← Text.writeInteger_eq_ok_iff]
  unfold Value.displayed Value.isWritable Text.writeInteger
  simp only [decide_eq_true_eq]
  rfl

/-- A text is shown as it is. -/
theorem displayed_text {s t : String} : (Value.text s).displayed = .ok t ↔ t = s :=
  ⟨fun h => (Except.ok.inj h).symm, fun h => h ▸ rfl⟩

/-- Through its text, a value is read as an integer when it is one within the limit or the text of one. -/
theorem readInteger_displayed [Capacity] {v : Value} (hnull : v ≠ .null) (hdecimal : ∀ d, v ≠ .decimal d) {n : ℤ} :
    (v.displayed >>= Text.readInteger) = .ok n ↔ ReadAs v n := by
  rw [bind_eq_ok]
  constructor
  · rintro ⟨s, hshown, hread⟩
    by_cases hint : ∃ m, v = .int m
    · obtain ⟨m, rfl⟩ := hint
      obtain ⟨hlimit, rfl⟩ := displayed_int.mp hshown
      rw [Text.readInteger_toString hlimit] at hread
      obtain rfl := Except.ok.inj hread
      exact .int hlimit
    · obtain ⟨digits, hwrites, hlength⟩ := Text.readInteger_eq_ok_iff.mp hread
      by_cases htext : ∃ t, v = .text t
      · obtain ⟨t, rfl⟩ := htext
        obtain rfl := displayed_text.mp hshown
        exact .text hwrites hlength
      · unfold Value.displayed at hshown
        split at hshown
        · obtain rfl := Except.ok.inj hshown
          exact absurd hwrites (not_writes_display hnull (not_exists.mp hint) (not_exists.mp htext) hdecimal)
        · cases hshown
  · rintro (⟨hlimit⟩ | ⟨hwrites, hlength⟩ | ⟨-⟩)
    · exact ⟨_, displayed_int.mpr ⟨hlimit, rfl⟩, Text.readInteger_toString hlimit⟩
    · exact ⟨_, displayed_text.mpr rfl, Text.readInteger_eq_ok_iff.mpr ⟨_, hwrites, hlength⟩⟩
    · exact absurd rfl (hdecimal _)

/-- A decimal is read when it is finite and does not exhaust memory. -/
theorem bigIntegerFromDatabase_decimal [Capacity] {d : Decimal} {w : Value} :
    bigIntegerFromDatabase (.decimal d) = .ok w ↔ ∃ n, ReadAs (.decimal d) n ∧ w = .int n := by
  have hreads : ∀ n, ReadAs (.decimal d) n ↔
      ∃ q, d.value? = some q ∧ d.exhausts = false ∧ n = Decimal.towardZero q := by
    intro n
    constructor
    · intro h
      cases h with
      | decimal hvalue hheld => exact ⟨_, hvalue, hheld, rfl⟩
    · rintro ⟨q, hvalue, hheld, rfl⟩
      exact .decimal hvalue hheld
  simp only [hreads]
  cases d with
  | finite negative coefficient exponent =>
    rw [bigIntegerFromDatabase, Decimal.truncate_eq]
    constructor
    · intro h
      split at h
      · cases h
      · next hheld => exact ⟨_, ⟨_, rfl, Bool.not_eq_true _ ▸ hheld, rfl⟩, (Except.ok.inj h).symm⟩
    · rintro ⟨n, ⟨q, hvalue, hheld, rfl⟩, rfl⟩
      rw [if_neg (by simp [hheld]), ← Option.some.inj hvalue]
  | infinite negative =>
    refine iff_of_false nofun ?_
    rintro ⟨n, ⟨q, hvalue, -⟩, -⟩
    cases hvalue
  | nan negative signaling payload =>
    refine iff_of_false nofun ?_
    rintro ⟨n, ⟨q, hvalue, -⟩, -⟩
    cases hvalue

/-- Every other value is read through its text. -/
theorem bigIntegerFromDatabase_displayed [Capacity] {v : Value} (hnull : v ≠ .null) (hdecimal : ∀ d, v ≠ .decimal d) :
    bigIntegerFromDatabase v =
      match v.displayed >>= Text.readInteger with
      | .ok n => .ok (.int n)
      | .error fault => .error (.integer fault) := by
  unfold bigIntegerFromDatabase
  split
  · exact absurd rfl hnull
  · exact absurd rfl (hdecimal _)
  · exact absurd rfl (hdecimal _)
  · exact absurd rfl (hdecimal _)
  · rfl

/-- A database value is read when it is null, a finite decimal that memory holds, or an integer or the text of
one within the limit. -/
theorem bigIntegerFromDatabase_eq_ok_iff [Capacity] {v w : Value} :
    bigIntegerFromDatabase v = .ok w ↔ v = .null ∧ w = .null ∨ ∃ n, ReadAs v n ∧ w = .int n := by
  by_cases hnull : v = .null
  · subst hnull
    refine ⟨fun h => .inl ⟨rfl, (Except.ok.inj h).symm⟩, ?_⟩
    rintro (⟨-, rfl⟩ | ⟨n, hreads, -⟩)
    · rfl
    · cases hreads
  · rw [or_iff_right fun h => hnull h.1]
    by_cases hdecimal : ∃ d, v = .decimal d
    · obtain ⟨d, rfl⟩ := hdecimal
      exact bigIntegerFromDatabase_decimal
    · rw [bigIntegerFromDatabase_displayed hnull (not_exists.mp hdecimal)]
      simp only [← readInteger_displayed hnull (not_exists.mp hdecimal)]
      cases v.displayed >>= Text.readInteger with
      | ok n =>
        refine ⟨fun h => ⟨n, rfl, (Except.ok.inj h).symm⟩, ?_⟩
        rintro ⟨m, hm, rfl⟩
        rw [Except.ok.inj hm]
      | error fault =>
        refine iff_of_false nofun ?_
        rintro ⟨m, hm, -⟩
        cases hm

/-- Where reading fails, it does not say which field it was for. -/
theorem bigIntegerFromDatabase_eq_error [Capacity] {v : Value} {fault : CodecFault}
    (h : bigIntegerFromDatabase v = .error fault) :
    (∃ cause, fault = .integer cause) ∨ fault = .notANumber ∨ fault = .infinite ∨ fault = .exhausted := by
  unfold bigIntegerFromDatabase at h
  split at h
  · cases h
  · split at h
    · exact .inr (.inr (.inr (Except.error.inj h).symm))
    · cases h
  · exact .inr (.inl (Except.error.inj h).symm)
  · exact .inr (.inr (.inl (Except.error.inj h).symm))
  · split at h
    · cases h
    · exact .inl ⟨_, (Except.error.inj h).symm⟩

/-! ## Both directions -/

/-- The plain text of an integer is read back as text and as decimal, and both are sent again as this text. -/
theorem plain_roundTrip [Capacity] (field : Option String) {n : ℤ} (hlimit : n.natAbs < 10 ^ maxDigits) :
    bigIntegerFromDatabase (.text (toString n)) = .ok (.int n) ∧
      (∃ d, Decimal.ofText? (toString n) = some d ∧ bigIntegerFromDatabase (.decimal d) = .ok (.int n)) ∧
      bigIntegerToDatabase field (.int n) = .ok (.text (toString n)) ∧
      bigIntegerToDatabase field (.text (toString n)) = .ok (.text (toString n)) := by
  obtain ⟨digits, hwrites, hlength⟩ := Text.readInteger_eq_ok_iff.mp (Text.readInteger_toString hlimit)
  refine ⟨?_, ⟨_, Decimal.ofText?_toString n, ?_⟩, ?_, ?_⟩
  · exact bigIntegerFromDatabase_eq_ok_iff.mpr (.inr ⟨n, .text hwrites hlength, rfl⟩)
  · have hreads := ReadAs.decimal (Decimal.value?_natAbs n)
      (not_exhausts_of_value? (Decimal.value?_natAbs n) hlimit)
    rw [Decimal.towardZero_intCast] at hreads
    exact bigIntegerFromDatabase_eq_ok_iff.mpr (.inr ⟨n, hreads, rfl⟩)
  · exact bigIntegerToDatabase_eq_ok_iff.mpr (.inr ⟨n, .int hlimit, rfl⟩)
  · exact bigIntegerToDatabase_eq_ok_iff.mpr (.inr ⟨n, .text hwrites hlength, rfl⟩)

/-- What the codec sends for a value that is not null is the plain text of the one integer that the value
denotes.  This text and its decimal are read as the integer, and the integer and the text are sent as the text
again.  Every integer of at most 4300 digits is sent. -/
theorem bigInteger_canonical [Capacity] (field : Option String) :
    (∀ v t : Value, v ≠ .null → Codec.bigInteger.toDatabase field v = .ok t →
      ∃ (n : ℤ) (s : String) (d : Decimal), (∀ m, Denotes v m ↔ m = n) ∧ t = .text s ∧ Plain s.toList n ∧
        Codec.bigInteger.fromDatabase field t = .ok (.int n) ∧
        Decimal.ofText? s = some d ∧ Codec.bigInteger.fromDatabase field (.decimal d) = .ok (.int n) ∧
        Codec.bigInteger.toDatabase field (.int n) = .ok t ∧
        Codec.bigInteger.toDatabase field t = .ok t) ∧
    ∀ n : ℤ, (Nat.digits 10 n.natAbs).length ≤ 4300 →
      ∃ t, Codec.bigInteger.toDatabase field (.int n) = .ok t := by
  constructor
  · intro v t hnull hsend
    obtain ⟨hv, -⟩ | ⟨n, hn, rfl⟩ := bigIntegerToDatabase_eq_ok_iff.mp hsend
    · exact absurd hv hnull
    · have hdenotes : ∀ m, Denotes v m ↔ m = n :=
        fun m => ⟨fun hm => hm.unique hn.denotes, fun hm => hm ▸ hn.denotes⟩
      obtain ⟨htext, ⟨d, hd, hdecimal⟩, hint, hagain⟩ := plain_roundTrip field hn.natAbs_lt
      exact ⟨n, toString n, d, hdenotes, rfl, Text.plain_iff.mpr rfl, htext, hd, hdecimal, hint, hagain⟩
  · intro n hn
    have hlimit : n.natAbs < 10 ^ maxDigits := Nat.digits_length_le_iff (by decide) _ |>.mp hn
    exact ⟨_, (plain_roundTrip field hlimit).2.2.1⟩

/-- Blanks, a plus, zeros in front and low lines are not sent, and the number comes back. -/
theorem bigInteger_canonical_padded :
    Codec.bigInteger.toDatabase (some "supply") (.text " +0_07 ") = .ok (.text "7") ∧
      Codec.bigInteger.fromDatabase (some "supply") (.text "7") = .ok (.int 7) ∧
      ∃ t, Codec.bigInteger.toDatabase (some "supply") (.int (-12345678901234567890)) = .ok t := by
  obtain ⟨digits, hwrites, hlength⟩ := Text.readInteger_eq_ok_iff.mp
    (show Text.readInteger " +0_07 " = .ok 7 by decide)
  have hsend : Codec.bigInteger.toDatabase (some "supply") (.text " +0_07 ") = .ok (.text "7") := by
    rw [toDatabase_bigInteger]
    exact bigIntegerToDatabase_eq_ok_iff.mpr (.inr ⟨7, .text hwrites hlength, rfl⟩)
  have hnull : Value.text " +0_07 " ≠ .null := nofun
  obtain ⟨n, s, d, hdenotes, -, -, hread, -⟩ := (bigInteger_canonical (some "supply")).1 _ _ hnull hsend
  obtain rfl : 7 = n := (hdenotes 7).mp (.text hwrites)
  exact ⟨hsend, hread, (bigInteger_canonical (some "supply")).2 _ (by norm_num)⟩

end SchemaReconcile
