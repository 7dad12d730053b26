import SchemaReconcile.Proofs.Naming.Spelling

/-!
# Names that shortening cannot tell apart

A generated name within the limit is kept, and a longer one is its beginning with a short hash of the whole.  A
shortened name could be the plain name of something else; but names of foreign keys and of unique indexes end in a letter
that is no hexadecimal digit, and shortened names end in one.  So two of these names are the same only when both were
shortened, and then exactly when they begin alike and have one hash (`Confusable`, `bounded_eq_bounded_iff`).

Nothing is asked of the names for that.  The limit is one of bytes and names are cut by characters, so that shortened
names are within the limit holds of ASCII names.
-/

namespace SchemaReconcile.Naming

open Text (shortHash)

variable {name a b : String}

/-- Two names are longer than the limit, begin alike, and have one short hash. -/
structure Confusable (a b : String) : Prop where
  left : IsLong a
  right : IsLong b
  start : a.toList.take 54 = b.toList.take 54
  hash : shortHash a = shortHash b

/-- Names with plain ends are the same after shortening exactly when they were so before or are confusable. -/
theorem bounded_eq_bounded_iff (ha : EndsPlain a) (hb : EndsPlain b) :
    bounded a = bounded b ↔ a = b ∨ Confusable a b := by
  constructor
  · intro h
    refine (eq_or_shortHash_eq_of_bounded_eq ha hb h).imp id ?_
    rintro ⟨hla, hlb, hhash⟩
    exact ⟨hla, hlb, ((bounded_eq_bounded_iff_of_long hla hlb).mp h).1, hhash⟩
  · rintro (rfl | h)
    · rfl
    · exact (bounded_eq_bounded_iff_of_long h.left h.right).mpr ⟨h.start, h.hash⟩

/-! ## Sizes -/

/-- An ASCII name stays ASCII when it is shortened. -/
theorem ascii_bounded (h : ∀ c ∈ name.toList, c.toNat < 128) : ∀ c ∈ (bounded name).toList, c.toNat < 128 := by
  by_cases hlong : IsLong name
  · have hlow : ∀ c ∈ ['_'], c.toNat < 128 := List.forall_mem_singleton.mpr (by decide)
    rw [toList_bounded_of_long hlong, List.append_assoc, List.forall_mem_append, List.forall_mem_append]
    exact ⟨fun c hc => h c (List.mem_of_mem_take hc), hlow, toNat_lt_of_worded (worded_shortHash name)⟩
  · rwa [bounded_of_not_long hlong]

/-- A name that was shortened need not be shortened again. -/
theorem bounded_bounded (h : (bounded name).utf8ByteSize ≤ maxIdentifierBytes) :
    bounded (bounded name) = bounded name :=
  bounded_of_not_long (Nat.not_lt.mpr h)

/-! ## Names of keys and unique indexes -/

/-- The name of the index that keeps a foreign key unique, before it is shortened. -/
def uniqueIndexName (table column : String) : String := table ++ "_" ++ column ++ "_uindex"

/-- The name of such an index has a plain end. -/
theorem endsPlain_uniqueIndexName (table column : String) : EndsPlain (uniqueIndexName table column) :=
  EndsPlain.append ⟨'x', rfl, by decide⟩ _

/-- The names of such indexes of a table differ where the columns do. -/
theorem uniqueIndexName_injective (table : String) : Function.Injective (uniqueIndexName table) :=
  between_injective (table ++ "_") "_uindex"

/-- A name of ASCII characters is within the limit once it was shortened, and shortening it again changes nothing; a
name within the limit is kept.  The foreign keys of two columns of a table have different names unless the whole names
are confusable, and so do the indexes that keep the columns unique. -/
theorem shortenedNames_apart :
    (∀ name, (∀ c ∈ name.toList, c.toNat < 128) →
      (bounded name).utf8ByteSize ≤ 63 ∧ bounded (bounded name) = bounded name) ∧
    (∀ name, name.utf8ByteSize ≤ 63 → bounded name = name) ∧
    ∀ table a b, a ≠ b →
      (foreignKeyConstraint table a = foreignKeyConstraint table b ↔
        Confusable (keyConstraintName table a) (keyConstraintName table b)) ∧
      (uniqueIndex table a = uniqueIndex table b ↔
        Confusable (uniqueIndexName table a) (uniqueIndexName table b)) := by
  refine ⟨fun name hascii => ?_, fun name hsize => bounded_of_not_long (Nat.not_lt.mpr hsize),
    fun table a b hne => ⟨?_, ?_⟩⟩
  · have hsize := size_bounded_le_of_ascii (ascii_bounded hascii)
    exact ⟨hsize, bounded_bounded hsize⟩
  · have hiff := bounded_eq_bounded_iff (endsPlain_keyConstraintName table a) (endsPlain_keyConstraintName table b)
    exact hiff.trans (or_iff_right fun heq => hne (keyConstraintName_injective table heq))
  · have hiff := bounded_eq_bounded_iff (endsPlain_uniqueIndexName table a) (endsPlain_uniqueIndexName table b)
    exact hiff.trans (or_iff_right fun heq => hne (uniqueIndexName_injective table heq))

/-- Two columns of a table whose own name has more than 54 characters: both keys are shortened and begin alike, and their
hashes hold them apart. -/
theorem shortenedNames_apart_longTable :
    IsLong (keyConstraintName "subscription_renewal_notification_preference_of_organization" "owner_id") ∧
    IsLong (keyConstraintName "subscription_renewal_notification_preference_of_organization" "editor_id") ∧
    foreignKeyConstraint "subscription_renewal_notification_preference_of_organization" "owner_id" ≠
      foreignKeyConstraint "subscription_renewal_notification_preference_of_organization" "editor_id" ∧
    (foreignKeyConstraint "subscription_renewal_notification_preference_of_organization"
      "owner_id").utf8ByteSize ≤ 63 := by
  obtain ⟨hsize, -, hapart⟩ := shortenedNames_apart
  have hhash : shortHash (keyConstraintName "subscription_renewal_notification_preference_of_organization" "owner_id") ≠
      shortHash (keyConstraintName "subscription_renewal_notification_preference_of_organization" "editor_id") := by
    decide +kernel
  have hascii : (keyConstraintName "subscription_renewal_notification_preference_of_organization"
      "owner_id").toList.all (fun c => c.toNat < 128) = true := by decide +kernel
  refine ⟨by decide +kernel, by decide +kernel, fun heq => ?_, ?_⟩
  · exact hhash ((hapart _ "owner_id" "editor_id" (by decide)).1.mp heq).hash
  · exact (hsize _ fun c hc => of_decide_eq_true (List.all_eq_true.mp hascii c hc)).1

end SchemaReconcile.Naming
