import Mathlib.Data.List.Basic
import SchemaReconcile.Text.Alphanumeric
import SchemaReconcile.Text.Identifier

/-!
# Identifier characters

Two sets of code points are compared by a walk along the bounds of both at once (`within`).  Between one bound and the
next one neither set changes, so there it is enough to look at the two sides.  The characters that an identifier may
start with are thereby among those that it may go on with (`isIdentifierContinue_of_start`).

Letters and digits are not all identifier characters, and of those that are some cannot stand in front.  The ASCII
ones can stand in an identifier, the letters in front as well.
-/

namespace SchemaReconcile.Text

/-! ## Sets of code points -/

/-- Whether the first of two sets lies within the second, from a code point on at which the walk along the bounds of
both is inside the first or not, and inside the second or not.  Each try takes one bound of either set or of both. -/
def withinFrom (first second : Bool) : ℕ → List ℕ → List ℕ → Bool
  | 0, _, _ => false
  | _ + 1, [], [] => !first || second
  | tries + 1, _ :: as, [] => (!first || second) && withinFrom (!first) second tries as []
  | tries + 1, [], _ :: bs => (!first || second) && withinFrom first (!second) tries [] bs
  | tries + 1, a :: as, b :: bs =>
    (!first || second) &&
      if a < b then withinFrom (!first) second tries as (b :: bs)
      else if b < a then withinFrom first (!second) tries (a :: as) bs
      else withinFrom (!first) (!second) tries as bs

/-- Whether the set with some bounds lies within the set with others. -/
def within (as bs : List ℕ) : Bool := withinFrom false false (as.length + bs.length + 1) as bs

/-- What the walk finds holds of each code point.  A code point in front of the next bounds is where the walk stands,
and any other one is behind the bound that the walk passes. -/
theorem inRangesFrom_of_withinFrom {first second : Bool} {tries : ℕ} {as bs : List ℕ}
    (h : withinFrom first second tries as bs = true) {n : ℕ} (hn : inRangesFrom first as n = true) :
    inRangesFrom second bs n = true := by
  have hhere : ∀ {first second : Bool}, (!first || second) = true → first = true → second = true := by decide
  induction tries generalizing first second as bs with
  | zero => cases h
  | succ tries ih =>
    cases as with
    | nil =>
      cases bs with
      | nil => exact hhere h hn
      | cons b bs =>
        obtain ⟨hnow, hlater⟩ := Bool.and_eq_true_iff.mp h
        rw [inRangesFrom]
        split
        · exact hhere hnow hn
        · exact ih hlater hn
    | cons a as =>
      cases bs with
      | nil =>
        obtain ⟨hnow, hlater⟩ := Bool.and_eq_true_iff.mp h
        rw [inRangesFrom] at hn
        split at hn
        · exact hhere hnow hn
        · exact ih hlater hn
      | cons b bs =>
        obtain ⟨hnow, hlater⟩ := Bool.and_eq_true_iff.mp h
        by_cases hfront : n < a ∧ n < b
        · rw [inRangesFrom, if_pos hfront.1] at hn
          rw [inRangesFrom, if_pos hfront.2]
          exact hhere hnow hn
        · split at hlater
          · have hpassed : ¬ n < a := by omega
            rw [inRangesFrom, if_neg hpassed] at hn
            exact ih hlater hn
          · split at hlater
            · have hpassed : ¬ n < b := by omega
              rw [inRangesFrom, if_neg hpassed]
              exact ih hlater hn
            · have hpassed : ¬ n < a ∧ ¬ n < b := by omega
              rw [inRangesFrom, if_neg hpassed.1] at hn
              rw [inRangesFrom, if_neg hpassed.2]
              exact ih hlater hn

/-- A set that lies within another one has its code points only there. -/
theorem inRanges_of_within {as bs : List ℕ} (h : within as bs = true) {n : ℕ} (hn : inRanges as n = true) :
    inRanges bs n = true :=
  inRangesFrom_of_withinFrom h hn

/-! ## Identifiers -/

/-- An identifier may go on with the characters that it may start with. -/
theorem isIdentifierContinue_of_start {c : Char} (h : isIdentifierStart c = true) : isIdentifierContinue c = true := by
  have hwithin : within identifierStartBounds identifierContinueBounds = true := by decide +kernel
  unfold isIdentifierStart at h
  unfold isIdentifierContinue
  split
  · next hascii =>
    rw [if_pos hascii, Bool.or_eq_true] at h
    rw [Char.isAlphanum, Bool.or_eq_true, Bool.or_eq_true]
    exact h.imp_left .inl
  · next hascii =>
    rw [if_neg hascii] at h
    exact inRanges_of_within hwithin h

/-- What stands behind the start of an identifier. -/
theorem isIdentifier_cons {c : Char} {rest : List Char} :
    isIdentifier (c :: rest) = true ↔ isIdentifierStart c = true ∧ ∀ d ∈ rest, isIdentifierContinue d = true := by
  rw [isIdentifier, Bool.and_eq_true, List.all_eq_true]

/-- An identifier has a first character, which it may start with. -/
theorem exists_cons_of_isIdentifier {cs : List Char} (h : isIdentifier cs = true) :
    ∃ c rest, cs = c :: rest ∧ isIdentifierStart c = true := by
  cases cs with
  | nil => cases h
  | cons c rest => exact ⟨c, rest, rfl, (isIdentifier_cons.mp h).1⟩

/-- All characters of an identifier are ones that it may go on with. -/
theorem continue_of_isIdentifier {cs : List Char} (h : isIdentifier cs = true) :
    ∀ c ∈ cs, isIdentifierContinue c = true := by
  obtain ⟨c, rest, rfl, hstart⟩ := exists_cons_of_isIdentifier h
  exact List.forall_mem_cons.mpr ⟨isIdentifierContinue_of_start hstart, (isIdentifier_cons.mp h).2⟩

/-- Characters that an identifier may go on with make no difference behind a text. -/
theorem isIdentifier_append {cs more : List Char} (hne : cs ≠ []) (hmore : ∀ c ∈ more, isIdentifierContinue c = true) :
    isIdentifier (cs ++ more) = true ↔ isIdentifier cs = true := by
  obtain ⟨c, rest, rfl⟩ := List.exists_cons_of_ne_nil hne
  rw [List.cons_append, isIdentifier_cons, isIdentifier_cons, List.forall_mem_append]
  exact and_congr_right' (and_iff_left hmore)

/-- ASCII letters and digits can stand in an identifier. -/
theorem continue_of_ascii {c : Char} (hascii : c.toNat < 128) (h : isLetterOrDigit c = true) :
    isIdentifierContinue c = true := by
  rw [isLetterOrDigit, if_pos hascii] at h
  rw [isIdentifierContinue, if_pos hascii, h, Bool.true_or]

/-- An ASCII letter or digit has a digit value or can start an identifier. -/
theorem start_or_digit_of_ascii {c : Char} (hascii : c.toNat < 128) (h : isLetterOrDigit c = true) :
    isIdentifierStart c = true ∨ isDigitLike c = true := by
  rw [isLetterOrDigit, if_pos hascii, Char.isAlphanum, Bool.or_eq_true] at h
  rw [isIdentifierStart, if_pos hascii, isDigitLike, if_pos hascii, Bool.or_eq_true]
  exact h.imp_left .inl

end SchemaReconcile.Text
