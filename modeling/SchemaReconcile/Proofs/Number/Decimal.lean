import Mathlib.Data.Rat.Floor
import Mathlib.Tactic.Linarith
import Mathlib.Tactic.Positivity
import SchemaReconcile.Number.Decimal
import SchemaReconcile.Proofs.Text.Integer

/-!
# Decimal numbers as rational numbers

`Decimal.value?` is the rational number that a finite decimal stands for.  `toInt?` is exact
(`toInt?_eq_some_iff`): it gives an integer for the decimals that equal one, whatever their exponent, and
nothing for the others, for infinities and for no number.  `truncate` always gives an integer, the value
cut on the side of zero (`truncate_eq`), so the two agree on the decimals that equal an integer and nowhere
else.

The plain text of an integer is read as the decimal with this coefficient and the exponent zero
(`ofText?_toString`).
-/

namespace SchemaReconcile.Number.Decimal

/-- The rational number that a finite decimal stands for. -/
def value? : Decimal → Option ℚ
  | finite negative coefficient exponent =>
    some ((if negative then -1 else 1) * coefficient * 10 ^ exponent)
  | _ => none

/-- A rational number cut to an integer on the side of zero. -/
def towardZero (q : ℚ) : ℤ := if 0 ≤ q then ⌊q⌋ else ⌈q⌉

/-! ## Cutting -/

/-- An integer is not changed by cutting. -/
theorem towardZero_intCast (n : ℤ) : towardZero n = n := by
  unfold towardZero
  split
  · exact Int.floor_intCast n
  · exact Int.ceil_intCast n

/-- Cutting treats both sides of zero alike. -/
theorem towardZero_neg (q : ℚ) : towardZero (-q) = -towardZero q := by
  unfold towardZero
  rcases lt_trichotomy q 0 with hq | rfl | hq
  · rw [if_pos (by linarith), if_neg (by linarith), Int.floor_neg]
  · simp
  · rw [if_neg (by linarith), if_pos (by linarith), Int.ceil_neg]

/-- A quotient of natural numbers is cut by their division. -/
theorem towardZero_div (m k : ℕ) : towardZero ((m : ℚ) / k) = (m / k : ℕ) := by
  rw [towardZero, if_pos (by positivity), Rat.floor_natCast_div_natCast]
  rfl

/-- The sign does not change the magnitude. -/
theorem natAbs_signed (negative : Bool) (n : ℕ) : (signed negative n).natAbs = n := by
  cases negative
  · exact Int.natAbs_natCast _
  · exact (Int.natAbs_neg _).trans (Int.natAbs_natCast _)

/-- A number with a sign is the number or its negation. -/
theorem signed_eq (negative : Bool) (n : ℕ) : signed negative n = (if negative then -1 else 1) * n := by
  cases negative <;> simp [signed]

/-- The sign of a cut number is set after cutting. -/
theorem towardZero_signed (negative : Bool) (q : ℚ) :
    towardZero ((if negative then -1 else 1) * q) = (if negative then -1 else 1) * towardZero q := by
  cases negative
  · simp
  · simp [towardZero_neg]

/-- Fewer digits than the power has zeros are less than the power. -/
theorem lt_pow_of_length_lt {n k : ℕ} (h : (coefficientText n).length < k) : n < 10 ^ k := by
  have hdigits : coefficientText n = Nat.toDigits 10 n := by
    rw [coefficientText, Nat.toString_eq_ofList_toDigits, String.toList_ofList]
  rw [hdigits] at h
  exact (Nat.length_toDigits_le_iff (by decide) (by omega)).mp h.le

/-- A decimal with a negative exponent is cut by dividing its coefficient. -/
theorem truncate_of_neg (negative : Bool) (coefficient : ℕ) {exponent : ℤ} (h : exponent < 0) :
    truncate negative coefficient exponent =
      signed negative (coefficient / 10 ^ (-exponent).toNat) := by
  rw [truncate, if_neg (by omega)]
  split
  · next hlength =>
    rw [Nat.div_eq_of_lt (lt_pow_of_length_lt hlength)]
    cases negative <;> rfl
  · rfl

/-- A negative power of ten is a division. -/
theorem mul_zpow_of_neg (q : ℚ) {exponent : ℤ} (h : exponent < 0) :
    q * 10 ^ exponent = q / (10 ^ (-exponent).toNat : ℕ) := by
  obtain ⟨k, hk⟩ := Int.eq_ofNat_of_zero_le (neg_nonneg.mpr h.le)
  obtain rfl : exponent = -k := by omega
  rw [zpow_neg, zpow_natCast, neg_neg, Int.toNat_natCast, Nat.cast_pow, Nat.cast_ofNat, div_eq_mul_inv]

/-- A decimal whose exponent is not negative is cut to the product of its coefficient and the power. -/
theorem truncate_eq_signed (negative : Bool) (coefficient : ℕ) {exponent : ℤ} (h : 0 ≤ exponent) :
    truncate negative coefficient exponent = signed negative (coefficient * 10 ^ exponent.toNat) := by
  rw [truncate, if_pos h, Nat.pow_eq]
  split
  · next hzero =>
    rw [eq_of_beq hzero, Nat.zero_mul]
    cases negative <;> rfl
  · rfl

/-- A decimal whose exponent is not negative is not changed by cutting. -/
theorem truncate_of_nonneg (negative : Bool) (coefficient : ℕ) {exponent : ℤ} (h : 0 ≤ exponent) :
    (truncate negative coefficient exponent : ℚ) =
      (if negative then -1 else 1) * coefficient * 10 ^ exponent := by
  obtain ⟨k, rfl⟩ := Int.eq_ofNat_of_zero_le h
  rw [truncate_eq_signed _ _ h, signed_eq, Int.toNat_natCast, zpow_natCast]
  cases negative <;> push_cast <;> ring

/-- A finite decimal is cut on the side of zero. -/
theorem truncate_eq (negative : Bool) (coefficient : ℕ) (exponent : ℤ) :
    truncate negative coefficient exponent =
      towardZero ((if negative then -1 else 1) * coefficient * 10 ^ exponent) := by
  rcases lt_or_ge exponent 0 with h | h
  · rw [truncate_of_neg _ _ h, signed_eq, mul_assoc, mul_zpow_of_neg _ h, towardZero_signed, towardZero_div]
  · rw [← truncate_of_nonneg _ _ h, towardZero_intCast]

/-! ## Equal integers -/

/-- A decimal with a negative exponent equals an integer when the power divides its coefficient. -/
theorem toInt?_of_neg (negative : Bool) (coefficient : ℕ) {exponent : ℤ} (h : exponent < 0) :
    toInt? (finite negative coefficient exponent) =
      if 10 ^ (-exponent).toNat ∣ coefficient then
        some (signed negative (coefficient / 10 ^ (-exponent).toNat)) else none := by
  rw [← truncate_of_neg negative coefficient h, toInt?]
  rcases Nat.eq_zero_or_pos coefficient with rfl | hpos
  · simp
  · rw [if_neg (by simp; omega)]
    split
    · next hlength => rw [if_neg (Nat.not_dvd_of_pos_of_lt hpos (lt_pow_of_length_lt hlength))]
    · simp only [Nat.pow_eq, beq_iff_eq, ← Nat.dvd_iff_mod_eq_zero]

/-- A signed multiple of a power equals an integer times the power exactly when the signed factor is this
integer. -/
theorem signed_eq_mul_iff {negative : Bool} {m n : ℕ} {z : ℤ} (hm : 0 < m) :
    signed negative n = z * m ↔ m ∣ n ∧ signed negative (n / m) = z := by
  have hfactor : ∀ k : ℕ, signed negative (m * k) = signed negative k * m := by
    intro k
    rw [signed_eq, signed_eq]
    push_cast
    ring
  have hpos : (m : ℤ) ≠ 0 := by exact_mod_cast hm.ne'
  constructor
  · intro h
    have hdvd : (m : ℤ) ∣ signed negative n := ⟨z, by rw [h, mul_comm]⟩
    have hnat : m ∣ n := by
      cases negative
      · exact Int.natCast_dvd_natCast.mp hdvd
      · exact Int.natCast_dvd_natCast.mp ((dvd_neg).mp hdvd)
    obtain ⟨k, rfl⟩ := hnat
    rw [hfactor] at h
    rw [Nat.mul_div_cancel_left _ hm]
    exact ⟨dvd_mul_right _ _, mul_right_cancel₀ hpos h⟩
  · rintro ⟨⟨k, rfl⟩, rfl⟩
    rw [Nat.mul_div_cancel_left _ hm, hfactor]

/-- A decimal is read as an integer when it equals this integer. -/
theorem toInt?_eq_some_iff {d : Decimal} {n : ℤ} : d.toInt? = some n ↔ d.value? = some (n : ℚ) := by
  cases d with
  | infinite negative => exact iff_of_false nofun nofun
  | nan negative signaling payload => exact iff_of_false nofun nofun
  | finite negative coefficient exponent =>
    rw [value?, Option.some.injEq]
    rcases lt_or_ge exponent 0 with h | h
    · have hpow : 0 < 10 ^ (-exponent).toNat := by positivity
      have hsigned : ((if negative then -1 else 1) * coefficient : ℚ) = (signed negative coefficient : ℤ) := by
        rw [signed_eq]
        push_cast
        rfl
      rw [toInt?_of_neg _ _ h, mul_zpow_of_neg _ h, div_eq_iff (by positivity), hsigned, ← Int.cast_natCast,
        ← Int.cast_mul, Int.cast_inj, signed_eq_mul_iff hpow, Option.ite_none_right_eq_some,
        Option.some.injEq]
    · rw [← truncate_of_nonneg _ _ h, Int.cast_inj, toInt?, if_pos (by simp [h]), Option.some.injEq]

/-- A decimal with the coefficient zero equals zero, whatever its exponent. -/
theorem toInt?_zero (negative : Bool) (exponent : ℤ) : toInt? (finite negative 0 exponent) = some 0 := by
  rw [toInt?, if_pos (by simp), truncate_eq]
  simp [towardZero]

/-- A decimal with a large exponent equals no integer with few digits unless its coefficient is zero. -/
theorem eq_zero_of_large_exponent {negative : Bool} {coefficient limit : ℕ} {exponent n : ℤ}
    (h : toInt? (finite negative coefficient exponent) = some n) (hexponent : limit < exponent)
    (hn : n.natAbs < 10 ^ limit) : coefficient = 0 := by
  have hnonneg : 0 ≤ exponent := by omega
  rw [toInt?, if_pos (by simp [hnonneg]), truncate_eq_signed _ _ hnonneg] at h
  have habs : n.natAbs = coefficient * 10 ^ exponent.toNat := by
    rw [← Option.some.inj h]
    exact natAbs_signed _ _
  have hpow : 10 ^ limit ≤ 10 ^ exponent.toNat := Nat.pow_le_pow_right (by decide) (by omega)
  by_contra hne
  have hlarge : 10 ^ limit ≤ n.natAbs :=
    habs ▸ hpow.trans (Nat.le_mul_of_pos_left _ (Nat.pos_of_ne_zero hne))
  omega

/-! ## Memory -/

/-- A number of digits with zeros behind them fits when the digits and the zeros do. -/
theorem length_add_le_iff {n k limit : ℕ} (hn : n ≠ 0) :
    (coefficientText n).length + k ≤ limit ↔ n * 10 ^ k < 10 ^ limit := by
  have hdigits : coefficientText n = Nat.toDigits 10 n := by
    rw [coefficientText, Nat.toString_eq_ofList_toDigits, String.toList_ofList]
  have hsome : 0 < (Nat.toDigits 10 n).length := List.length_pos_of_ne_nil Nat.toDigits_ne_nil
  rw [hdigits]
  rcases lt_or_ge k limit with hk | hk
  · obtain ⟨m, rfl⟩ := Nat.exists_eq_add_of_lt hk
    rw [show k + m + 1 = (m + 1) + k by omega, Nat.add_le_add_iff_right, pow_add,
      Nat.mul_lt_mul_right (by positivity), Nat.length_toDigits_le_iff (by decide) (by omega)]
  · refine iff_of_false (by omega) (not_lt.mpr ?_)
    calc 10 ^ limit ≤ 10 ^ k := Nat.pow_le_pow_right (by decide) hk
      _ ≤ n * 10 ^ k := Nat.le_mul_of_pos_left _ (Nat.pos_of_ne_zero hn)

/-- The integers that exhaust memory are those of a positive exponent with more digits than the longest one
that can be built. -/
theorem exhausts_iff [Capacity] {negative : Bool} {coefficient : ℕ} {exponent : ℤ} :
    (finite negative coefficient exponent).exhausts = true ↔
      0 < exponent ∧ 10 ^ Capacity.digits ≤ (truncate negative coefficient exponent).natAbs := by
  simp only [exhausts, Bool.and_eq_true, decide_eq_true_eq, bne_iff_ne, and_assoc]
  refine and_congr_right fun hexponent => ?_
  have habs : (truncate negative coefficient exponent).natAbs = coefficient * 10 ^ exponent.toNat := by
    rw [truncate_eq_signed _ _ hexponent.le]
    exact natAbs_signed _ _
  rw [habs]
  rcases eq_or_ne coefficient 0 with rfl | hne
  · simp
  · rw [← not_le, length_add_le_iff hne, not_lt]
    exact and_iff_right hne

/-! ## Plain text -/

/-- Where nothing is blank, nothing is trimmed. -/
theorem trimBoth_eq_self {blank : Char → Bool} {cs : List Char} (h : ∀ c ∈ cs, blank c = false) :
    Text.trimBoth blank cs = cs := by
  have hdrop : ∀ ds : List Char, (∀ c ∈ ds, blank c = false) → ds.dropWhile blank = ds := by
    intro ds hds
    cases ds with
    | nil => rfl
    | cons d ds => rw [List.dropWhile_cons_of_neg (by simp [hds d List.mem_cons_self])]
  rw [Text.trimBoth, hdrop cs h, hdrop _ fun c hc => h c (List.mem_reverse.mp hc), List.reverse_reverse]

/-- ASCII digits without point and exponent are the coefficient. -/
theorem readUnsigned_of_digits {cs : List Char} (hne : cs ≠ []) (h : ∀ c ∈ cs, c ∈ "0123456789".toList) :
    readUnsigned cs = some (Nat.ofDigitChars 10 cs 0, 0) := by
  have hvalue : ∀ c ∈ cs, Text.decimalValue? c = some (c.toNat - '0'.toNat) :=
    fun c hc => (Text.of_mem_decimalAlphabet (h c hc)).1
  have hdigit : ∀ c ∈ cs, (Text.decimalValue? c).isSome = true := fun c hc => by rw [hvalue c hc]; rfl
  have hmap : cs.filterMap Text.decimalValue? = cs.map fun c => c.toNat - '0'.toNat := by
    rw [← List.filterMap_eq_map]
    exact List.filterMap_congr hvalue
  have hread : Text.natOfDigits (cs.map fun c => c.toNat - '0'.toNat) = Nat.ofDigitChars 10 cs 0 := by
    rw [Text.natOfDigits, List.foldl_map]
    rfl
  simp only [readUnsigned, List.takeWhile_eq_self_iff.mpr hdigit, List.dropWhile_eq_nil_iff.mpr hdigit,
    hmap, List.append_nil, hread, List.isEmpty_map, List.isEmpty_iff, hne, if_false]
  rfl

/-- The plain text of an integer is the decimal with its digits and the exponent zero. -/
theorem ofText?_toString (n : ℤ) : ofText? (toString n) = some (finite (n < 0) n.natAbs 0) := by
  obtain ⟨sign, factor, hsign, htext, -, hfactor⟩ := Text.exists_sign_toDigits n
  have halphabet : ∀ c ∈ Nat.toDigits 10 n.natAbs, c ∈ "0123456789".toList :=
    fun c hc => Text.mem_decimalAlphabet hc
  have hread := readUnsigned_of_digits Nat.toDigits_ne_nil halphabet
  rw [Nat.ofDigitChars_ten_toDigits] at hread
  obtain ⟨c, cs, hdigits⟩ := List.exists_cons_of_ne_nil (Nat.toDigits_ne_nil (n := n.natAbs) (b := 10))
  rw [hdigits] at htext halphabet hread
  have hall : ∀ d ∈ sign ++ c :: cs, d ∈ "+-0123456789".toList := by
    have hsigns : ∀ p ∈ Text.signs, p.1 ⊆ "+-0123456789".toList := by decide
    have hdigits : "0123456789".toList ⊆ "+-0123456789".toList := by decide
    intro d hd
    exact (List.mem_append.mp hd).elim (hsigns _ hsign ·) fun hd => hdigits (halphabet d hd)
  have hplain : ∀ d ∈ "+-0123456789".toList, Text.isBlank d = false ∧ (d != '_') = true ∧ d.toLower = d ∧
      d ≠ 'i' ∧ d ≠ 'n' ∧ d ≠ 's' := by
    have hcheck : "+-0123456789".toList.all (fun d => decide (Text.isBlank d = false ∧ (d != '_') = true ∧
        d.toLower = d ∧ d ≠ 'i' ∧ d ≠ 'n' ∧ d ≠ 's')) = true := by decide
    intro d hd
    exact of_decide_eq_true (List.all_eq_true.mp hcheck d hd)
  have htrim : (Text.trimBoth Text.isBlank (toString n).toList).filter (· != '_') = sign ++ c :: cs := by
    rw [htext, trimBoth_eq_self fun d hd => (hplain d (hall d hd)).1,
      List.filter_eq_self.mpr fun d hd => (hplain d (hall d hd)).2.1]
  have hlower : (c :: cs).map Char.toLower = c :: cs := by
    rw [List.map_congr_left fun d hd => (hplain d (hall d (List.mem_append_right _ hd))).2.2.1]
    exact List.map_id' _
  obtain ⟨-, -, -, hi, hn, hs⟩ := hplain c (hall c (by simp))
  have hsignTaken : Text.takeSign (sign ++ c :: cs) = (decide (factor < 0), c :: cs) :=
    Text.takeSign_append hsign (Text.of_mem_decimalAlphabet (halphabet c List.mem_cons_self)).1
  simp only [ofText?, htrim, hsignTaken, hlower, hread]
  simp [hi, hn, hs, hfactor]

/-- That decimal equals the integer. -/
theorem value?_natAbs (n : ℤ) : (finite (n < 0) n.natAbs 0).value? = some (n : ℚ) := by
  rw [← toInt?_eq_some_iff, toInt?, if_pos (by simp), truncate_eq_signed _ _ le_rfl, signed_eq]
  have hnat : n.natAbs * 10 ^ (0 : ℤ).toNat = n.natAbs := Nat.mul_one _
  rw [hnat, Option.some.injEq]
  rcases lt_or_ge n 0 with h | h
  · rw [if_pos (by simpa using h)]
    omega
  · rw [if_neg (by simpa using h)]
    omega

end SchemaReconcile.Number.Decimal
