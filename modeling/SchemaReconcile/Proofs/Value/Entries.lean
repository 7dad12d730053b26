import Mathlib.Data.List.Pairwise
import SchemaReconcile.Value.Basic

/-!
# Entries with text keys

A text is the same key as itself only (`sameKey_text_iff`), so the value of a text key is that of an entry with
this key (`mem_of_entry?`, `exists_entry?_of_mem`), and it is known once entries are put: after one is put for a
text key (`entry?_putEntry`) or for another key (`entry?_putEntry_of_ne`), and after all entries of a mapping are
put one by one (`entry?_foldl_putEntry`).  In the last case a later entry would win over an earlier one with its
key, while a lookup finds the first of them.  So no text may be the key of two entries (`TextsApart`), and putting
entries keeps it so (`textsApart_putEntry`).
-/

namespace SchemaReconcile.Value

variable {α : Type} {key : String} {k : Value} {v w : α} {entries init : List (Value × α)} {p : Value × α}

/-- Only a text is the same key as it. -/
theorem sameKey_text_iff : sameKey k (.text key) = true ↔ k = .text key := by
  constructor
  · intro h
    cases k with
    | text s => rw [beq_iff_eq.mp h]
    | _ => simp [sameKey, sameScalar, integral?] at h
  · rintro rfl
    exact beq_self_eq_true key

/-- A text is the same key as it only. -/
theorem text_sameKey_iff : sameKey (.text key) k = true ↔ k = .text key := by
  constructor
  · intro h
    cases k with
    | text s => rw [beq_iff_eq.mp h]
    | _ => simp [sameKey, sameScalar, integral?] at h
  · rintro rfl
    exact beq_self_eq_true key

/-! ## Lookups -/

/-- The value of a text key stands among the entries with this key. -/
theorem mem_of_entry? (h : entry? (.text key) entries = some v) : (.text key, v) ∈ entries := by
  induction entries with
  | nil => cases h
  | cons p rest ih =>
    obtain ⟨k, w⟩ := p
    unfold entry? at h
    split at h
    · next hkey =>
      obtain rfl := Option.some.inj h
      rw [sameKey_text_iff.mp hkey]
      exact List.mem_cons_self
    · exact List.mem_cons_of_mem _ (ih h)

/-- The value of a text key is found when there is one. -/
theorem exists_entry?_of_mem (h : (.text key, w) ∈ entries) : ∃ w', entry? (.text key) entries = some w' := by
  induction entries with
  | nil => cases h
  | cons p rest ih =>
    obtain ⟨k, w'⟩ := p
    unfold entry?
    split
    · exact ⟨w', rfl⟩
    · next hkey =>
      rcases List.mem_cons.mp h with heq | hrest
      · obtain ⟨rfl, rfl⟩ := Prod.mk.inj heq
        exact absurd (sameKey_text_iff.mpr rfl) hkey
      · exact ih hrest

/-- The value of a key that was put. -/
theorem entry?_putEntry (key : String) (v : α) (entries : List (Value × α)) :
    entry? (.text key) (putEntry (.text key) v entries) = some v := by
  induction entries with
  | nil => simp [putEntry, Value.entry?, sameKey, sameScalar]
  | cons p rest ih =>
    obtain ⟨k, w⟩ := p
    unfold putEntry
    split
    · next hkey => simp [Value.entry?, hkey]
    · next hkey => simpa [Value.entry?, hkey] using ih

/-- The value of a text key stays when an entry is put for another key. -/
theorem entry?_putEntry_of_ne (hk : k ≠ .text key) :
    entry? (.text key) (putEntry k v entries) = entry? (.text key) entries := by
  induction entries with
  | nil => simp [putEntry, Value.entry?, sameKey_text_iff, hk]
  | cons p rest ih =>
    obtain ⟨k', w⟩ := p
    unfold putEntry
    split
    · next hsame =>
      -- the first key is the one that was put, so it is not the text either
      have hk' : k' ≠ .text key := by
        rintro rfl
        exact hk (text_sameKey_iff.mp hsame)
      simp [Value.entry?, sameKey_text_iff, hk']
    · by_cases hk' : k' = .text key
      · simp [Value.entry?, sameKey_text_iff, hk']
      · simpa [Value.entry?, sameKey_text_iff, hk'] using ih

/-- What stands at a place stays when an entry is put, unless it has the value of the key. -/
theorem getElem?_putEntry {i : ℕ} (hp : entries[i]? = some p) (hne : Value.entry? k entries ≠ some p.2) :
    (putEntry k v entries)[i]? = some p := by
  induction entries generalizing i with
  | nil => cases hp
  | cons q rest ih =>
    obtain ⟨k', w⟩ := q
    unfold putEntry
    unfold Value.entry? at hne
    split at hne
    · next hsame =>
      rw [if_pos hsame]
      cases i with
      | zero => exact absurd (congrArg _ (congrArg Prod.snd (Option.some.inj hp))) hne
      | succ i => exact hp
    · next hsame =>
      rw [if_neg hsame]
      cases i with
      | zero => exact hp
      | succ i => exact ih hp hne

/-! ## Text keys apart -/

/-- No text is the key of two entries. -/
def TextsApart (entries : List (Value × α)) : Prop :=
  entries.Pairwise fun p q => ∀ key, p.1 = .text key → q.1 ≠ .text key

/-- After an entry is put, each entry is an earlier one or has the value that was put, for the key that was put or
for an earlier one. -/
theorem mem_putEntry (h : p ∈ putEntry k v entries) :
    p ∈ entries ∨ p.2 = v ∧ (p.1 = k ∨ ∃ q ∈ entries, q.1 = p.1) := by
  induction entries with
  | nil =>
    obtain rfl := List.mem_singleton.mp h
    exact .inr ⟨rfl, .inl rfl⟩
  | cons q rest ih =>
    obtain ⟨k', w⟩ := q
    unfold putEntry at h
    split at h
    · rcases List.mem_cons.mp h with rfl | hrest
      · exact .inr ⟨rfl, .inr ⟨_, List.mem_cons_self, rfl⟩⟩
      · exact .inl (List.mem_cons_of_mem _ hrest)
    · rcases List.mem_cons.mp h with rfl | hrest
      · exact .inl List.mem_cons_self
      · rcases ih hrest with hp | ⟨hvalue, rfl | ⟨q, hq, hkey⟩⟩
        · exact .inl (List.mem_cons_of_mem _ hp)
        · exact .inr ⟨hvalue, .inl rfl⟩
        · exact .inr ⟨hvalue, .inr ⟨q, List.mem_cons_of_mem _ hq, hkey⟩⟩

/-- Text keys stay apart when an entry is put. -/
theorem textsApart_putEntry (h : TextsApart entries) : TextsApart (putEntry k v entries) := by
  induction entries with
  | nil => exact List.pairwise_singleton _ _
  | cons q rest ih =>
    obtain ⟨k', w⟩ := q
    obtain ⟨hfirst, hrest⟩ := List.pairwise_cons.mp h
    unfold putEntry
    split
    · exact List.pairwise_cons.mpr ⟨hfirst, hrest⟩
    · next hother =>
      refine List.pairwise_cons.mpr ⟨fun p hp key hkey => ?_, ih hrest⟩
      rcases mem_putEntry hp with hp | ⟨-, rfl | ⟨q, hq, hqp⟩⟩
      · exact hfirst p hp key hkey
      · rintro heq
        obtain rfl : k' = .text key := hkey
        exact hother (text_sameKey_iff.mpr heq)
      · rw [← hqp]
        exact hfirst q hq key hkey

/-- Entries that are put one by one have the values of text keys among them, and besides these the earlier ones. -/
theorem entry?_foldl_putEntry {own : List (Value × α)} (h : TextsApart own) :
    entry? (.text key) (own.foldl (fun done (k, v) => putEntry k v done) init) =
      (Value.entry? (.text key) own).or (Value.entry? (.text key) init) := by
  induction own generalizing init with
  | nil => rfl
  | cons q rest ih =>
    obtain ⟨k, v⟩ := q
    obtain ⟨hfirst, hrest⟩ := List.pairwise_cons.mp h
    rw [List.foldl_cons, ih hrest]
    by_cases hk : k = .text key
    · obtain rfl := hk
      have hnone : entry? (.text key) rest = none := by
        refine Option.eq_none_iff_forall_ne_some.mpr fun w hw => ?_
        exact hfirst _ (Value.mem_of_entry? hw) key rfl rfl
      have hsome : entry? (.text key) ((.text key, v) :: rest) = some v := by
        simp [Value.entry?, sameKey_text_iff]
      rw [hnone, hsome, entry?_putEntry]
      rfl
    · rw [Value.entry?_putEntry_of_ne hk]
      simp [Value.entry?, sameKey_text_iff, hk]

/-- Entries have the values that other entries have for text keys, and possibly more. -/
def Extends (record own : List (Value × α)) : Prop :=
  ∀ key v, entry? (.text key) own = some v → entry? (.text key) record = some v

/-- Entries that are put one by one are all there. -/
theorem extends_foldl_putEntry {own : List (Value × α)} (h : TextsApart own) :
    Extends (own.foldl (fun done (k, v) => putEntry k v done) init) own := by
  intro key v hkey
  rw [entry?_foldl_putEntry h, hkey]
  rfl

end SchemaReconcile.Value
