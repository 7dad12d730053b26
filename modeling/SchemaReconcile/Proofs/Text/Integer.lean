import Mathlib.Data.List.Induction
import Mathlib.Data.List.TakeWhile
import Mathlib.Data.Nat.Digits.Lemmas
import SchemaReconcile.Proofs.Results
import SchemaReconcile.Text.Integer

/-!
# Reading and writing integer text

A text writes an integer (`Writes`) when it is blanks, at most one sign, decimal digits of any script with
single low lines between them (`Numerals`), and blanks.  Nothing in front of the digits and no low line
takes part in the number, so `readInteger` accepts many texts of one integer: exactly those that write it
with at most `maxDigits` digits, the zeros in front included (`readInteger_eq_ok_iff`).

One of these texts is plain (`Plain`): ASCII digits without a zero in front, behind a minus if the integer is
negative.  Every integer has exactly one plain text (`plain_iff`), `writeInteger` gives it, and it is read back
(`readInteger_toString`).
-/

namespace SchemaReconcile.Text

/-- Decimal digits with single low lines between them, and the values of the digits. -/
inductive Numerals : List Char → List ℕ → Prop where
  | last {c : Char} {d : ℕ} (h : decimalValue? c = some d) : Numerals [c] [d]
  | digit {c : Char} {d : ℕ} {cs : List Char} {ds : List ℕ} (h : decimalValue? c = some d)
      (rest : Numerals cs ds) : Numerals (c :: cs) (d :: ds)
  | line {c : Char} {d : ℕ} {cs : List Char} {ds : List ℕ} (h : decimalValue? c = some d)
      (rest : Numerals cs ds) : Numerals (c :: '_' :: cs) (d :: ds)

/-- What may stand in front of the digits, with the factor that it stands for. -/
def signs : List (List Char × ℤ) := [([], 1), (['+'], 1), (['-'], -1)]

/-- A text writes an integer with these digits. -/
inductive Writes : List Char → List ℕ → ℤ → Prop where
  | intro {before sign body after : List Char} {factor : ℤ} {digits : List ℕ}
      (hbefore : ∀ c ∈ before, isIntegerBlank c = true) (hsign : (sign, factor) ∈ signs)
      (hbody : Numerals body digits) (hafter : ∀ c ∈ after, isIntegerBlank c = true) :
      Writes (before ++ (sign ++ (body ++ after))) digits (factor * (Nat.ofDigits 10 digits.reverse : ℕ))

/-- The plain text of an integer. -/
inductive Plain : List Char → ℤ → Prop where
  | zero : Plain ['0'] 0
  | positive {c : Char} {cs : List Char} (hc : c ∈ "123456789".toList)
      (hcs : ∀ d ∈ cs, d ∈ "0123456789".toList) : Plain (c :: cs) (Nat.ofDigitChars 10 (c :: cs) 0)
  | negative {c : Char} {cs : List Char} (hc : c ∈ "123456789".toList)
      (hcs : ∀ d ∈ cs, d ∈ "0123456789".toList) :
      Plain ('-' :: c :: cs) (-Nat.ofDigitChars 10 (c :: cs) 0)

/-! ## Digits, signs and blanks -/

/-- A value is below ten, and the character stands that far behind the zero of its run of ten digits. -/
theorem decimalValue?_eq_some {c : Char} {d : ℕ} (h : decimalValue? c = some d) :
    d < 10 ∧ (c.toNat = 48 + d ∨ ¬ c.toNat < 128 ∧ ∃ z ∈ decimalZeros, c.toNat = z + d) := by
  unfold decimalValue? at h
  split at h
  · obtain ⟨hdigit, hvalue⟩ := Option.ite_none_right_eq_some.mp h
    obtain rfl := Option.some.inj hvalue
    rw [Char.isDigit, Bool.and_eq_true, decide_eq_true_eq, decide_eq_true_eq] at hdigit
    have hlow : 48 ≤ c.toNat := hdigit.1
    have hhigh : c.toNat ≤ 57 := hdigit.2
    have hzero : '0'.toNat = 48 := rfl
    exact ⟨by omega, .inl (by omega)⟩
  · next hwide =>
    obtain ⟨z, hz, rfl⟩ := Option.map_eq_some_iff.mp h
    have hrange := List.find?_some hz
    rw [Bool.and_eq_true, decide_eq_true_eq, decide_eq_true_eq] at hrange
    exact ⟨by omega, .inr ⟨hwide, z, List.mem_of_find?_eq_some hz, by omega⟩⟩

/-- A character with a value is no blank: none of the runs of ten digits meets a range of blanks. -/
theorem not_blank_of_decimalValue? {c : Char} {d : ℕ} (h : decimalValue? c = some d) :
    isIntegerBlank c = false := by
  have hascii : ∀ k < 10, isIntegerBlank (Char.ofNat (48 + k)) = false := by decide
  have hruns : ∀ z ∈ decimalZeros, ∀ k < 10, inRanges blankBounds (z + k) = false := by decide
  obtain ⟨hd, hc | ⟨hwide, z, hz, hc⟩⟩ := decimalValue?_eq_some h
  · rw [← Char.ofNat_toNat c, hc]
    exact hascii d hd
  · rw [isIntegerBlank, if_neg hwide, isBlank, hc]
    exact hruns z hz d hd

/-- A low line and the signs have no value. -/
theorem decimalValue?_mark {c : Char} (hc : c = '_' ∨ c = '+' ∨ c = '-') : decimalValue? c = none := by
  rcases hc with rfl | rfl | rfl <;> rfl

/-- Numerals start with a digit. -/
theorem Numerals.exists_cons {cs : List Char} {ds : List ℕ} (h : Numerals cs ds) :
    ∃ c d rest, cs = c :: rest ∧ decimalValue? c = some d := by
  cases h with
  | last h => exact ⟨_, _, _, rfl, h⟩
  | digit h _ => exact ⟨_, _, _, rfl, h⟩
  | line h _ => exact ⟨_, _, _, rfl, h⟩

/-- The number of digits, most significant first. -/
theorem natOfDigits_eq (digits : List ℕ) : natOfDigits digits = Nat.ofDigits 10 digits.reverse := by
  rw [Nat.ofDigits_eq_foldr, List.foldr_reverse]
  simp only [natOfDigits, add_comm, Nat.cast_id]

/-- There are three signs. -/
theorem mem_signs_iff {sign : List Char} {factor : ℤ} :
    (sign, factor) ∈ signs ↔
      sign = [] ∧ factor = 1 ∨ sign = ['+'] ∧ factor = 1 ∨ sign = ['-'] ∧ factor = -1 := by
  simp [signs]

/-- The sign of a text is one of the three, and what follows it is the rest of the text. -/
theorem exists_sign (cs : List Char) :
    ∃ sign factor, (sign, factor) ∈ signs ∧ cs = sign ++ (takeSign cs).2 ∧
      factor = if (takeSign cs).1 then -1 else 1 := by
  unfold takeSign
  split
  · exact ⟨['-'], -1, by decide, rfl, rfl⟩
  · exact ⟨['+'], 1, by decide, rfl, rfl⟩
  · exact ⟨[], 1, by decide, rfl, rfl⟩

/-- A sign in front of a digit is taken, and nothing else. -/
theorem takeSign_append {sign cs : List Char} {factor : ℤ} {c : Char} {d : ℕ}
    (hsign : (sign, factor) ∈ signs) (hc : decimalValue? c = some d) :
    takeSign (sign ++ c :: cs) = (decide (factor < 0), c :: cs) := by
  have hno : ∀ mark, mark = '_' ∨ mark = '+' ∨ mark = '-' → c ≠ mark := by
    rintro mark hmark rfl
    rw [decimalValue?_mark hmark] at hc
    cases hc
  obtain ⟨rfl, rfl⟩ | ⟨rfl, rfl⟩ | ⟨rfl, rfl⟩ := mem_signs_iff.mp hsign
  · rw [List.nil_append]
    unfold takeSign
    split
    · next heq => exact absurd (List.cons.inj heq).1 (hno '-' (by decide))
    · next heq => exact absurd (List.cons.inj heq).1 (hno '+' (by decide))
    · rfl
  · rfl
  · rfl

/-- What stands behind the blanks of an integer starts with a sign or a digit. -/
theorem dropWhile_blanks {before sign cs : List Char} {factor : ℤ} {c : Char} {d : ℕ}
    (hbefore : ∀ c ∈ before, isIntegerBlank c = true) (hsign : (sign, factor) ∈ signs)
    (hc : decimalValue? c = some d) :
    (before ++ (sign ++ c :: cs)).dropWhile isIntegerBlank = sign ++ c :: cs := by
  rw [List.dropWhile_append_of_pos hbefore]
  have hblank : ¬ isIntegerBlank c = true := by simp [not_blank_of_decimalValue? hc]
  obtain ⟨rfl, -⟩ | ⟨rfl, -⟩ | ⟨rfl, -⟩ := mem_signs_iff.mp hsign
  · rw [List.nil_append, List.dropWhile_cons_of_neg hblank]
  · rfl
  · rfl

/-! ## Runs of digits -/

/-- A run of digits does not go on here. -/
def Stops (rest : List Char) : Prop := ∀ c ∈ rest.head?, c ≠ '_' ∧ decimalValue? c = none

/-- Blanks end a run. -/
theorem stops_of_blank {after : List Char} (h : ∀ c ∈ after, isIntegerBlank c = true) : Stops after := by
  intro c hc
  have hblank := h c (List.mem_of_mem_head? hc)
  refine ⟨?_, ?_⟩
  · rintro rfl
    cases hblank
  · by_contra hvalue
    obtain ⟨d, hd⟩ := Option.ne_none_iff_exists'.mp hvalue
    rw [not_blank_of_decimalValue? hd] at hblank
    cases hblank

/-- A digit starts a run, whatever stands before. -/
theorem digitRun?_digit {c : Char} {d : ℕ} (h : decimalValue? c = some d) (afterLine : Bool) (cs : List Char) :
    digitRun? afterLine (c :: cs) = (digitRun? false cs).map fun run => ⟨d :: run.digits, run.rest⟩ := by
  have hline : ¬ (c == '_') = true := by
    intro hc
    rw [decimalValue?_mark (.inl (eq_of_beq hc))] at h
    cases h
  rw [digitRun?, if_neg hline, h]

/-- Where a run does not go on, it has no digits. -/
theorem digitRun?_of_stops {rest : List Char} (h : Stops rest) : digitRun? false rest = some ⟨[], rest⟩ := by
  cases rest with
  | nil => rfl
  | cons c cs =>
    obtain ⟨hline, hvalue⟩ := h c rfl
    rw [digitRun?, if_neg (by simpa using hline), hvalue]
    rfl

/-- Numerals are read as one run up to where it stops, whatever stands before. -/
theorem digitRun?_of_numerals {body rest : List Char} {digits : List ℕ} (h : Numerals body digits)
    (hrest : Stops rest) (afterLine : Bool) :
    digitRun? afterLine (body ++ rest) = some ⟨digits, rest⟩ := by
  induction h generalizing afterLine with
  | last h =>
    rw [List.singleton_append, digitRun?_digit h, digitRun?_of_stops hrest]
    rfl
  | digit h _ ih =>
    rw [List.cons_append, digitRun?_digit h, ih]
    rfl
  | @line c d cs ds h _ ih =>
    have hnext : digitRun? false ('_' :: (cs ++ rest)) = digitRun? true (cs ++ rest) := rfl
    rw [List.cons_append, List.cons_append, digitRun?_digit h, hnext, ih]
    rfl

/-- A run holds numerals, possibly behind a low line if none stands before, and stops after them. -/
theorem numerals_of_digitRun? {afterLine : Bool} {cs : List Char} {run : DigitRun}
    (h : digitRun? afterLine cs = some run) :
    Stops run.rest ∧ (afterLine = false ∧ run = ⟨[], cs⟩ ∨
      ∃ body, Numerals body run.digits ∧
        (cs = body ++ run.rest ∨ afterLine = false ∧ cs = '_' :: (body ++ run.rest))) := by
  -- a low line only sets the mark that a digit must follow, so it joins the numerals one character later
  induction cs generalizing afterLine run with
  | nil =>
    cases afterLine with
    | true => cases h
    | false =>
      obtain rfl := Option.some.inj h
      exact ⟨fun c hc => (by cases hc), .inl ⟨rfl, rfl⟩⟩
  | cons c cs ih =>
    by_cases hline : c = '_'
    · subst hline
      cases afterLine with
      | true => cases h
      | false =>
        obtain ⟨hstops, hrun⟩ := @ih true run h
        obtain ⟨hfalse, -⟩ | ⟨body, hbody, rfl | ⟨hfalse, -⟩⟩ := hrun
        · cases hfalse
        · exact ⟨hstops, .inr ⟨body, hbody, .inr ⟨rfl, rfl⟩⟩⟩
        · cases hfalse
    · cases hvalue : decimalValue? c with
      | none =>
        rw [digitRun?, if_neg (by simpa using hline), hvalue] at h
        cases afterLine with
        | true => cases h
        | false =>
          obtain rfl := Option.some.inj h
          refine ⟨?_, .inl ⟨rfl, rfl⟩⟩
          rintro e ⟨⟩
          exact ⟨hline, hvalue⟩
      | some d =>
        rw [digitRun?_digit hvalue] at h
        obtain ⟨run, hrun, rfl⟩ := Option.map_eq_some_iff.mp h
        obtain ⟨hstops, htail⟩ := ih hrun
        obtain ⟨-, rfl⟩ | ⟨body, hbody, rfl | ⟨-, rfl⟩⟩ := htail
        · exact ⟨hstops, .inr ⟨[c], .last hvalue, .inl rfl⟩⟩
        · exact ⟨hstops, .inr ⟨c :: body, .digit hvalue hbody, .inl rfl⟩⟩
        · exact ⟨hstops, .inr ⟨c :: '_' :: body, .line hvalue hbody, .inl rfl⟩⟩

/-! ## Reading -/

/-- A sign, a run and blanks make up a text that writes an integer. -/
theorem writes_of_parts {cs body : List Char} {negative : Bool} {run : DigitRun}
    (hsign : takeSign (cs.dropWhile isIntegerBlank) = (negative, body)) (hrun : digitRun? true body = some run)
    (hafter : ∀ c ∈ run.rest, isIntegerBlank c = true) :
    Writes cs run.digits (if negative then -natOfDigits run.digits else natOfDigits run.digits) := by
  obtain ⟨sign, factor, hmem, hrest, hfactor⟩ := exists_sign (cs.dropWhile isIntegerBlank)
  rw [hsign] at hrest hfactor
  obtain ⟨-, ⟨hfalse, -⟩ | ⟨digits, hdigits, rfl | ⟨hfalse, -⟩⟩⟩ := numerals_of_digitRun? hrun
  · cases hfalse
  · have hbefore : ∀ c ∈ cs.takeWhile isIntegerBlank, isIntegerBlank c = true :=
      fun c hc => List.mem_takeWhile_imp hc
    have hwrites := Writes.intro hbefore hmem hdigits hafter
    rw [← hrest, List.takeWhile_append_dropWhile, ← natOfDigits_eq, hfactor] at hwrites
    cases negative
    · rwa [if_neg Bool.false_ne_true, one_mul] at hwrites
    · rwa [if_pos rfl, neg_one_mul] at hwrites
  · cases hfalse

/-- A text that writes an integer is taken apart into the sign, the run and the blanks. -/
theorem Writes.parts {cs : List Char} {digits : List ℕ} {n : ℤ} (h : Writes cs digits n) :
    ∃ negative body after, takeSign (cs.dropWhile isIntegerBlank) = (negative, body) ∧
      digitRun? true body = some ⟨digits, after⟩ ∧ (∀ c ∈ after, isIntegerBlank c = true) ∧
      n = if negative then -(natOfDigits digits : ℤ) else natOfDigits digits := by
  obtain @⟨before, sign, body, after, factor, digits, hbefore, hsign, hbody, hafter⟩ := h
  have hrun := digitRun?_of_numerals hbody (stops_of_blank hafter) true
  obtain ⟨c, d, rest, rfl, hc⟩ := hbody.exists_cons
  refine ⟨decide (factor < 0), c :: (rest ++ after), after, ?_, hrun, hafter, ?_⟩
  · rw [List.cons_append, dropWhile_blanks hbefore hsign hc, takeSign_append hsign hc]
  · rw [natOfDigits_eq]
    obtain ⟨-, rfl⟩ | ⟨-, rfl⟩ | ⟨-, rfl⟩ := mem_signs_iff.mp hsign
    · simp
    · simp
    · simp

/-- A text writes at most one integer. -/
theorem Writes.unique {cs : List Char} {digits digits' : List ℕ} {n n' : ℤ} (h : Writes cs digits n)
    (h' : Writes cs digits' n') : n = n' := by
  obtain ⟨negative, body, after, hsign, hrun, -, rfl⟩ := h.parts
  obtain ⟨negative', body', after', hsign', hrun', -, rfl⟩ := h'.parts
  obtain ⟨rfl, rfl⟩ := Prod.mk.inj (hsign.symm.trans hsign')
  obtain ⟨rfl, -⟩ := DigitRun.mk.inj (Option.some.inj (hrun.symm.trans hrun'))
  rfl

/-- An integer is read from exactly the texts that write it within the limit of digits. -/
theorem readInteger_eq_ok_iff {text : String} {n : ℤ} :
    readInteger text = .ok n ↔ ∃ digits, Writes text.toList digits n ∧ digits.length ≤ maxDigits := by
  constructor
  · intro h
    unfold readInteger at h
    cases hsign : takeSign (text.toList.dropWhile isIntegerBlank) with
    | mk negative body =>
      rw [hsign] at h
      dsimp only at h
      split at h
      · cases h
      · next run hrun =>
        split at h
        · cases h
        · next hlength =>
          split at h
          · next hafter =>
            rw [← Except.ok.inj h]
            exact ⟨run.digits, writes_of_parts hsign hrun (List.all_eq_true.mp hafter),
              Nat.le_of_not_lt hlength⟩
          · cases h
  · rintro ⟨digits, hwrites, hlength⟩
    obtain ⟨negative, body, after, hsign, hrun, hafter, rfl⟩ := hwrites.parts
    rw [readInteger, hsign]
    dsimp only
    rw [hrun]
    dsimp only
    rw [if_neg (Nat.not_lt.mpr hlength), if_pos (List.all_eq_true.mpr hafter)]
    rfl

/-! ## Sizes -/

/-- The values of numerals are below ten. -/
theorem Numerals.lt_ten {cs : List Char} {ds : List ℕ} (h : Numerals cs ds) : ∀ d ∈ ds, d < 10 := by
  induction h with
  | last h => exact List.forall_mem_singleton.mpr ((decimalValue?_eq_some h).1)
  | digit h _ ih => exact List.forall_mem_cons.mpr ⟨(decimalValue?_eq_some h).1, ih⟩
  | line h _ ih => exact List.forall_mem_cons.mpr ⟨(decimalValue?_eq_some h).1, ih⟩

/-- An integer has at most as many digits as a text that writes it. -/
theorem Writes.natAbs_lt {cs : List Char} {digits : List ℕ} {n : ℤ} (h : Writes cs digits n) :
    n.natAbs < 10 ^ digits.length := by
  obtain ⟨-, hsign, hbody, -⟩ := h
  have hunit : ∀ p ∈ signs, p.2.natAbs = 1 := by decide
  rw [Int.natAbs_mul, hunit _ hsign, one_mul, Int.natAbs_natCast, ← List.length_reverse]
  exact Nat.ofDigits_lt_base_pow_length (by decide) fun d hd => hbody.lt_ten d (List.mem_reverse.mp hd)

/-! ## Texts of no integer -/

/-- A character that takes no part in integer text. -/
def Foreign (c : Char) : Prop :=
  c ∉ "+-_".toList ∧ isIntegerBlank c = false ∧ decimalValue? c = none

instance (c : Char) : Decidable (Foreign c) := inferInstanceAs (Decidable (_ ∧ _ ∧ _))

/-- Numerals are digits and low lines. -/
theorem Numerals.mem {cs : List Char} {ds : List ℕ} (h : Numerals cs ds) {c : Char} (hc : c ∈ cs) :
    c = '_' ∨ decimalValue? c ≠ none := by
  have hdigit : ∀ {e d}, decimalValue? e = some d → decimalValue? e ≠ none :=
    fun he => Option.ne_none_iff_exists'.mpr ⟨_, he⟩
  induction h with
  | last h =>
    rw [List.mem_singleton.mp hc]
    exact .inr (hdigit h)
  | digit h _ ih =>
    obtain rfl | hc := List.mem_cons.mp hc
    · exact .inr (hdigit h)
    · exact ih hc
  | line h _ ih =>
    obtain rfl | hc := List.mem_cons.mp hc
    · exact .inr (hdigit h)
    · obtain rfl | hc := List.mem_cons.mp hc
      · exact .inl rfl
      · exact ih hc

/-- What stands behind the sign is digits, low lines and blanks. -/
theorem Numerals.mem_append {body after : List Char} {ds : List ℕ} (h : Numerals body ds)
    (hafter : ∀ c ∈ after, isIntegerBlank c = true) {c : Char} (hc : c ∈ body ++ after) :
    c = '_' ∨ decimalValue? c ≠ none ∨ isIntegerBlank c = true := by
  rcases List.mem_append.mp hc with hc | hc
  · exact (h.mem hc).imp_right .inl
  · exact .inr (.inr (hafter c hc))

/-- A text with a foreign character writes no integer. -/
theorem not_writes_of_foreign {cs : List Char} {c : Char} (hc : c ∈ cs) (h : Foreign c) {digits : List ℕ}
    {n : ℤ} : ¬ Writes cs digits n := by
  obtain ⟨hmark, hblank, hvalue⟩ := h
  rintro ⟨hbefore, hsign, hbody, hafter⟩
  have hsigns : ∀ p ∈ signs, p.1 ⊆ "+-_".toList := by decide
  rcases List.mem_append.mp hc with hc | hc
  · rw [hbefore c hc] at hblank
    cases hblank
  · rcases List.mem_append.mp hc with hc | hc
    · exact hmark (hsigns _ hsign hc)
    · rcases hbody.mem_append hafter hc with rfl | hdigit | hafter
      · exact hmark (by decide)
      · exact hdigit hvalue
      · rw [hafter] at hblank
        cases hblank

/-- A text that starts with a digit and has a minus writes no integer. -/
theorem not_writes_of_minus {c : Char} {d : ℕ} {cs : List Char} (hc : decimalValue? c = some d)
    (hminus : '-' ∈ cs) {digits : List ℕ} {n : ℤ} : ¬ Writes (c :: cs) digits n := by
  intro h
  generalize htext : c :: cs = text at h
  obtain @⟨before, sign, body, after, factor, digits, hbefore, hsign, hbody, hafter⟩ := h
  have hblank := not_blank_of_decimalValue? hc
  obtain rfl : before = [] := by
    cases before with
    | nil => rfl
    | cons b before =>
      rw [(List.cons.inj htext).1, hbefore b List.mem_cons_self] at hblank
      cases hblank
  have hnone : sign = [] := by
    obtain ⟨rfl, -⟩ | ⟨rfl, -⟩ | ⟨rfl, -⟩ := mem_signs_iff.mp hsign
    · rfl
    · rw [(List.cons.inj htext).1] at hc
      cases hc
    · rw [(List.cons.inj htext).1] at hc
      cases hc
  rw [hnone, List.nil_append, List.nil_append] at htext
  have hmem : '-' ∈ body ++ after := htext ▸ List.mem_cons_of_mem c hminus
  rcases hbody.mem_append hafter hmem with hline | hdigit | hblank
  · cases hline
  · exact hdigit rfl
  · cases hblank

/-! ## Plain text -/

/-- The digits of ASCII have their values, and each is the plain text of its value. -/
theorem of_mem_decimalAlphabet {c : Char} (hc : c ∈ "0123456789".toList) :
    decimalValue? c = some (c.toNat - '0'.toNat) ∧ c.toNat - '0'.toNat < 10 ∧
      Nat.toDigits 10 (c.toNat - '0'.toNat) = [c] := by
  have hall : "0123456789".toList.all (fun c => decide (decimalValue? c = some (c.toNat - '0'.toNat) ∧
      c.toNat - '0'.toNat < 10 ∧ Nat.toDigits 10 (c.toNat - '0'.toNat) = [c])) = true := by decide
  exact of_decide_eq_true (List.all_eq_true.mp hall c hc)

/-- A first digit that is not zero makes a positive number. -/
theorem of_mem_leadingDigits {c : Char} (hc : c ∈ "123456789".toList) :
    c ∈ "0123456789".toList ∧ 0 < c.toNat - '0'.toNat := by
  have hall : "123456789".toList.all (fun c => decide (c ∈ "0123456789".toList ∧
      0 < c.toNat - '0'.toNat)) = true := by decide
  exact of_decide_eq_true (List.all_eq_true.mp hall c hc)

/-- Digits without a zero in front are the digits of the number that they write. -/
theorem toDigits_ofDigitChars {c : Char} {cs : List Char} (hc : c ∈ "123456789".toList)
    (hcs : ∀ d ∈ cs, d ∈ "0123456789".toList) :
    0 < Nat.ofDigitChars 10 (c :: cs) 0 ∧ Nat.toDigits 10 (Nat.ofDigitChars 10 (c :: cs) 0) = c :: cs := by
  induction cs using List.reverseRecOn with
  | nil =>
    obtain ⟨hdigit, hpos⟩ := of_mem_leadingDigits hc
    have hvalue : Nat.ofDigitChars 10 [c] 0 = c.toNat - '0'.toNat := by
      rw [Nat.ofDigitChars_cons, Nat.ofDigitChars_nil, Nat.mul_zero, Nat.zero_add]
    rw [hvalue]
    exact ⟨hpos, (of_mem_decimalAlphabet hdigit).2.2⟩
  | append_singleton cs d ih =>
    obtain ⟨hpos, hdigits⟩ := ih fun e he => hcs e (List.mem_append_left _ he)
    obtain ⟨-, hd, hlast⟩ := of_mem_decimalAlphabet (hcs d (by simp))
    have hvalue : Nat.ofDigitChars 10 (c :: (cs ++ [d])) 0 =
        10 * Nat.ofDigitChars 10 (c :: cs) 0 + (d.toNat - '0'.toNat) := by
      rw [← List.cons_append, Nat.ofDigitChars_append, Nat.ofDigitChars_cons, Nat.ofDigitChars_nil]
    rw [hvalue, ← Nat.toDigits_append_toDigits (by decide) hpos hd, hdigits, hlast]
    exact ⟨by omega, rfl⟩

/-- The digits of a positive number are digits without a zero in front. -/
theorem exists_toDigits {m : ℕ} (h : 0 < m) : ∃ c cs, Nat.toDigits 10 m = c :: cs ∧
    c ∈ "123456789".toList ∧ ∀ d ∈ cs, d ∈ "0123456789".toList := by
  have hlast : ∀ k < 10, k.digitChar ∈ "0123456789".toList ∧ (0 < k → k.digitChar ∈ "123456789".toList) := by
    decide
  induction m using Nat.strong_induction_on with
  | h m ih =>
    by_cases hsmall : m < 10
    · exact ⟨_, [], Nat.toDigits_of_lt_base hsmall, (hlast m hsmall).2 h, by simp⟩
    · obtain ⟨c, cs, hdigits, hc, hcs⟩ := ih (m / 10) (by omega) (by omega)
      refine ⟨c, cs ++ [(m % 10).digitChar], ?_, hc, ?_⟩
      · rw [Nat.toDigits_of_base_le (by decide) (Nat.le_of_not_lt hsmall), hdigits, List.cons_append]
      · rintro d hd
        rcases List.mem_append.mp hd with hd | hd
        · exact hcs d hd
        · rw [List.mem_singleton.mp hd]
          exact (hlast _ (Nat.mod_lt _ (by decide))).1

/-- The text of a number that is not negative is its digits. -/
theorem toList_toString_natCast (m : ℕ) : (toString (m : ℤ)).toList = Nat.toDigits 10 m := by
  rw [Int.toString_eq_repr, Int.repr_eq_if, if_pos (Int.natCast_nonneg m), Int.toNat_natCast,
    Nat.repr_eq_ofList_toDigits, String.toList_ofList]

/-- The text of a negative number is a minus and its digits. -/
theorem toList_toString_neg {m : ℕ} (h : 0 < m) :
    (toString (-(m : ℤ))).toList = '-' :: Nat.toDigits 10 m := by
  rw [Int.toString_eq_repr, Int.repr_eq_if, if_neg (by omega), neg_neg, Int.toNat_natCast,
    Nat.repr_eq_ofList_toDigits, String.toList_append, String.toList_ofList, String.toList_ofList]
  rfl

/-- The digits of a positive number are its plain text, and behind a minus that of its negation. -/
theorem plain_toDigits {m : ℕ} (h : 0 < m) :
    Plain (Nat.toDigits 10 m) m ∧ Plain ('-' :: Nat.toDigits 10 m) (-m) := by
  obtain ⟨c, cs, hdigits, hc, hcs⟩ := exists_toDigits h
  have hvalue : Nat.ofDigitChars 10 (c :: cs) 0 = m := hdigits ▸ Nat.ofDigitChars_ten_toDigits
  have hpositive := Plain.positive hc hcs
  have hnegative := Plain.negative hc hcs
  rw [hvalue, ← hdigits] at hpositive hnegative
  exact ⟨hpositive, hnegative⟩

/-- Every integer has exactly one plain text. -/
theorem plain_iff {cs : List Char} {n : ℤ} : Plain cs n ↔ cs = (toString n).toList := by
  constructor
  · rintro (_ | ⟨hc, hcs⟩ | ⟨hc, hcs⟩)
    · rfl
    · rw [toList_toString_natCast, (toDigits_ofDigitChars hc hcs).2]
    · obtain ⟨hpos, hdigits⟩ := toDigits_ofDigitChars hc hcs
      rw [toList_toString_neg hpos, hdigits]
  · rintro rfl
    obtain ⟨m, rfl | rfl⟩ := n.eq_nat_or_neg
    · rw [toList_toString_natCast]
      rcases Nat.eq_zero_or_pos m with rfl | hpos
      · exact .zero
      · exact (plain_toDigits hpos).1
    · rcases Nat.eq_zero_or_pos m with rfl | hpos
      · exact .zero
      · rw [toList_toString_neg hpos]
        exact (plain_toDigits hpos).2

/-! ## Writing -/

/-- An integer within the limit of digits is written as its plain text. -/
theorem writeInteger_eq_ok_iff {n : ℤ} {s : String} :
    writeInteger n = .ok s ↔ n.natAbs < 10 ^ maxDigits ∧ s = toString n := by
  unfold writeInteger
  -- the power of the limit stays a symbol
  generalize maxDigits = limit
  split
  · next h => exact ⟨fun hs => ⟨h, (Except.ok.inj hs).symm⟩, fun hs => hs.2 ▸ rfl⟩
  · next h => exact iff_of_false nofun fun hs => h hs.1

/-- An integer beyond the limit of digits has no text. -/
theorem writeInteger_eq_error_iff {n : ℤ} {fault : IntegerFault} :
    writeInteger n = .error fault ↔ 10 ^ maxDigits ≤ n.natAbs ∧ fault = .longNumber := by
  unfold writeInteger
  generalize maxDigits = limit
  split
  · next h => exact iff_of_false nofun fun hn => absurd h (Nat.not_lt.mpr hn.1)
  · next h =>
    exact ⟨fun hn => ⟨Nat.le_of_not_lt h, (Except.error.inj hn).symm⟩, fun hn => hn.2 ▸ rfl⟩

/-- ASCII digits are numerals, each with its value. -/
theorem numerals_of_alphabet {cs : List Char} (hne : cs ≠ [])
    (h : ∀ c ∈ cs, c ∈ "0123456789".toList) : Numerals cs (cs.map fun c => c.toNat - '0'.toNat) := by
  induction cs with
  | nil => exact absurd rfl hne
  | cons c cs ih =>
    obtain ⟨hc, hcs⟩ := List.forall_mem_cons.mp h
    have hvalue := (of_mem_decimalAlphabet hc).1
    cases cs with
    | nil => exact .last hvalue
    | cons d cs => exact .digit hvalue (ih (List.cons_ne_nil _ _) hcs)

/-- The digits of a number are those of ASCII. -/
theorem mem_decimalAlphabet {m : ℕ} {c : Char} (hc : c ∈ Nat.toDigits 10 m) : c ∈ "0123456789".toList := by
  rcases Nat.eq_zero_or_pos m with rfl | hpos
  · rw [Nat.toDigits_zero, List.mem_singleton] at hc
    rw [hc]
    decide
  · obtain ⟨d, cs, hdigits, hd, hcs⟩ := exists_toDigits hpos
    rw [hdigits] at hc
    obtain rfl | hc := List.mem_cons.mp hc
    · exact (of_mem_leadingDigits hd).1
    · exact hcs c hc

/-- The digits of a number are numerals that write it. -/
theorem numerals_toDigits (m : ℕ) : ∃ digits, Numerals (Nat.toDigits 10 m) digits ∧
    Nat.ofDigits 10 digits.reverse = m ∧ digits.length = (Nat.toDigits 10 m).length := by
  refine ⟨_, numerals_of_alphabet Nat.toDigits_ne_nil fun c hc => mem_decimalAlphabet hc, ?_,
    List.length_map _⟩
  rw [← natOfDigits_eq, natOfDigits, List.foldl_map]
  exact Nat.ofDigitChars_ten_toDigits

/-- The plain text of an integer is a sign and the digits of its absolute value. -/
theorem exists_sign_toDigits (n : ℤ) : ∃ sign factor, (sign, factor) ∈ signs ∧
    (toString n).toList = sign ++ Nat.toDigits 10 n.natAbs ∧ factor * n.natAbs = n ∧
    (factor < 0 ↔ n < 0) := by
  obtain ⟨m, rfl | rfl⟩ := n.eq_nat_or_neg
  · exact ⟨[], 1, by decide, toList_toString_natCast m, one_mul _, by omega⟩
  · rcases Nat.eq_zero_or_pos m with rfl | hpos
    · exact ⟨[], 1, by decide, rfl, one_mul _, by omega⟩
    · rw [Int.natAbs_neg, Int.natAbs_natCast]
      exact ⟨['-'], -1, by decide, toList_toString_neg hpos, neg_one_mul _, by omega⟩

/-- The plain text of an integer writes it, with as many digits as the integer has. -/
theorem exists_writes_toString (n : ℤ) : ∃ digits, Writes (toString n).toList digits n ∧
    digits.length = (Nat.toDigits 10 n.natAbs).length := by
  have hnone : ∀ c ∈ ([] : List Char), isIntegerBlank c = true := nofun
  obtain ⟨sign, factor, hsign, htext, hfactor, -⟩ := exists_sign_toDigits n
  obtain ⟨digits, hdigits, hvalue, hlength⟩ := numerals_toDigits n.natAbs
  have hwrites := Writes.intro hnone hsign hdigits hnone
  rw [List.nil_append, List.append_nil, ← htext, hvalue, hfactor] at hwrites
  exact ⟨digits, hwrites, hlength⟩

/-- An integer within the limit of digits is read back from its plain text. -/
theorem readInteger_toString {n : ℤ} (h : n.natAbs < 10 ^ maxDigits) : readInteger (toString n) = .ok n := by
  obtain ⟨digits, hwrites, hlength⟩ := exists_writes_toString n
  refine readInteger_eq_ok_iff.mpr ⟨digits, hwrites, ?_⟩
  rw [hlength]
  exact (Nat.length_toDigits_le_iff (by decide) (by decide)).mpr h

end SchemaReconcile.Text
