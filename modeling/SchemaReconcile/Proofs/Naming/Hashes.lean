import Mathlib.Data.List.Basic
import SchemaReconcile.Naming.Identifier

/-!
# Names and their short hashes

A name within the limit stands for itself, and a longer one for its beginning with a short hash.  A shortened
name ends in a hexadecimal digit, so it is never a generated name that ends in another character; and two
shortened names can only be the same when the hashes are.  Enum types hold nothing of the name of an
enumeration but its hash.

`CollisionFree` is the assumption on the short hash: on the names of a list it tells them apart.
-/

namespace SchemaReconcile.Naming

open Text (shortHash hexDigit hexDigits)

/-- The short hash tells the names of a list apart. -/
def CollisionFree (names : List String) : Prop :=
  ∀ a ∈ names, ∀ b ∈ names, shortHash a = shortHash b → a = b

/-- Whether the short hash tells names apart can be computed. -/
instance (names : List String) : Decidable (CollisionFree names) :=
  inferInstanceAs (Decidable (∀ a ∈ names, ∀ b ∈ names, shortHash a = shortHash b → a = b))

/-- A name is longer than the database keeps. -/
def IsLong (name : String) : Prop := maxIdentifierBytes < name.utf8ByteSize

/-- Whether a name is too long can be computed. -/
instance (name : String) : Decidable (IsLong name) :=
  inferInstanceAs (Decidable (maxIdentifierBytes < name.utf8ByteSize))

/-! ## Shortened names -/

/-- There are as many hexadecimal digits as asked for. -/
theorem length_hexDigits (width n : ℕ) : (hexDigits width n).length = width := by
  induction width generalizing n with
  | zero => rfl
  | succ width ih => rw [hexDigits, List.length_append, ih, List.length_singleton]

/-- A short hash has eight characters. -/
theorem length_shortHash (name : String) : (shortHash name).toList.length = 8 := by
  rw [shortHash, String.toList_ofList, length_hexDigits]

/-- A short hash ends in a hexadecimal digit. -/
theorem getLast?_shortHash (name : String) :
    ∃ n < 16, (shortHash name).toList.getLast? = some (hexDigit n) := by
  rw [shortHash, String.toList_ofList, hexDigits, List.getLast?_concat]
  exact ⟨_, Nat.mod_lt _ (by decide), rfl⟩

/-- A name within the limit stays as it is. -/
theorem bounded_of_not_long {name : String} (h : ¬ IsLong name) : bounded name = name :=
  if_pos (Nat.not_lt.mp h)

/-- The characters of a shortened name. -/
theorem toList_bounded_of_long {name : String} (h : IsLong name) :
    (bounded name).toList =
      (name.toList.take (maxIdentifierBytes - 9) ++ ['_']) ++ (shortHash name).toList := by
  rw [bounded, if_neg (Nat.not_le.mpr h), String.toList_append, String.toList_append,
    String.toList_ofList]
  rfl

/-- A shortened name ends in a hexadecimal digit. -/
theorem getLast?_bounded_of_long {name : String} (h : IsLong name) :
    ∃ n < 16, (bounded name).toList.getLast? = some (hexDigit n) := by
  obtain ⟨n, hn, hlast⟩ := getLast?_shortHash name
  refine ⟨n, hn, ?_⟩
  rw [toList_bounded_of_long h, List.getLast?_append, hlast]
  rfl

/-- Two shortened names are the same exactly when their beginnings and the hashes are. -/
theorem bounded_eq_bounded_iff_of_long {a b : String} (ha : IsLong a) (hb : IsLong b) :
    bounded a = bounded b ↔
      a.toList.take (maxIdentifierBytes - 9) = b.toList.take (maxIdentifierBytes - 9) ∧ shortHash a = shortHash b := by
  rw [← String.toList_inj, ← String.toList_inj, toList_bounded_of_long ha, toList_bounded_of_long hb]
  have hlength : (shortHash a).toList.length = (shortHash b).toList.length := by
    rw [length_shortHash, length_shortHash]
  constructor
  · intro h
    obtain ⟨hstart, hhash⟩ := List.append_inj' h hlength
    exact ⟨List.append_cancel_right hstart, hhash⟩
  · rintro ⟨hstart, hhash⟩
    rw [hstart, hhash]

/-- A name ends in a character that is no hexadecimal digit. -/
def EndsPlain (name : String) : Prop :=
  ∃ c, name.toList.getLast? = some c ∧ ∀ n < 16, c ≠ hexDigit n

/-- A plain end stays one behind other text. -/
theorem EndsPlain.append {tail : String} (h : EndsPlain tail) (front : String) : EndsPlain (front ++ tail) := by
  obtain ⟨c, hc, hplain⟩ := h
  refine ⟨c, ?_, hplain⟩
  rw [String.toList_append, List.getLast?_append, hc]
  rfl

/-- A plain end of a name is not that of a shortened one. -/
theorem bounded_ne_of_endsPlain {a b : String} (ha : EndsPlain a) (hb : IsLong b) : bounded b ≠ a := by
  rintro rfl
  obtain ⟨c, hc, hplain⟩ := ha
  obtain ⟨n, hn, hlast⟩ := getLast?_bounded_of_long hb
  rw [hc] at hlast
  exact hplain n hn (Option.some.inj hlast)

/-- Generated names with plain ends are the same only if the whole names or, for names that are too long,
the hashes are. -/
theorem eq_or_shortHash_eq_of_bounded_eq {a b : String} (ha : EndsPlain a) (hb : EndsPlain b)
    (h : bounded a = bounded b) : a = b ∨ IsLong a ∧ IsLong b ∧ shortHash a = shortHash b := by
  by_cases hla : IsLong a
  · by_cases hlb : IsLong b
    · exact .inr ⟨hla, hlb, ((bounded_eq_bounded_iff_of_long hla hlb).mp h).2⟩
    · rw [bounded_of_not_long hlb] at h
      exact absurd h (bounded_ne_of_endsPlain hb hla)
  · rw [bounded_of_not_long hla] at h
    by_cases hlb : IsLong b
    · exact absurd h.symm (bounded_ne_of_endsPlain ha hlb)
    · rw [bounded_of_not_long hlb] at h
      exact .inl h

/-- What stands between two texts can be told from the whole. -/
theorem between_injective (front tail : String) : Function.Injective fun middle => front ++ middle ++ tail := by
  intro a b h
  have hlist : front.toList ++ a.toList ++ tail.toList = front.toList ++ b.toList ++ tail.toList := by
    simpa only [String.toList_append] using congrArg String.toList h
  exact String.toList_injective (List.append_cancel_left (List.append_cancel_right hlist))

/-! ## Foreign keys and enum types -/

/-- The name of a foreign key before it is shortened. -/
def keyConstraintName (table column : String) : String := table ++ "_" ++ column ++ "_fkey"

/-- The name of a foreign key has a plain end. -/
theorem endsPlain_keyConstraintName (table column : String) :
    EndsPlain (keyConstraintName table column) :=
  EndsPlain.append ⟨'y', rfl, by decide⟩ _

/-- The names of the foreign keys of a table differ where the columns do. -/
theorem keyConstraintName_injective (table : String) :
    Function.Injective (keyConstraintName table) :=
  between_injective (table ++ "_") "_fkey"

/-- Foreign keys of a table have different names, unless two names that are too long have one hash. -/
theorem column_eq_of_foreignKeyConstraint_eq {table a b : String}
    (h : foreignKeyConstraint table a = foreignKeyConstraint table b) {names : List String}
    (hfree : CollisionFree names)
    (hnames : ∀ c ∈ [a, b], IsLong (keyConstraintName table c) → keyConstraintName table c ∈ names) :
    a = b := by
  rcases eq_or_shortHash_eq_of_bounded_eq (endsPlain_keyConstraintName table a)
    (endsPlain_keyConstraintName table b) h with heq | ⟨hla, hlb, hhash⟩
  · exact keyConstraintName_injective table heq
  · exact keyConstraintName_injective table
      (hfree _ (hnames a (by simp) hla) _ (hnames b (by simp) hlb) hhash)

/-- Enumerations have types of different names, unless their names have one hash. -/
theorem shortHash_eq_of_enumTypeOf_eq {schema a b : String} (h : enumTypeOf schema a = enumTypeOf schema b) :
    shortHash a = shortHash b := by
  have hlist : schema.toList ++ "_enum_".toList ++ (shortHash a).toList =
      schema.toList ++ "_enum_".toList ++ (shortHash b).toList := by
    simpa only [enumTypeOf, String.toList_append] using congrArg String.toList h
  exact String.toList_injective (List.append_cancel_left hlist)

end SchemaReconcile.Naming
