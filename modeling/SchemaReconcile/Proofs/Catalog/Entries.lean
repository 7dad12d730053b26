import Mathlib.Data.List.Basic
import SchemaReconcile.Catalog.Entries

/-!
# Reading entries

What a lookup finds after entries were changed, and what a set holds after a member was added.  Putting a
value for a key that is there keeps the place of the key, so it does not matter what stands behind.
-/

namespace SchemaReconcile.Catalog

variable {κ α : Type} [BEq κ]

/-- The first entry decides a lookup of its own key, the others any other lookup. -/
theorem lookup_entry (j k : κ) (v : α) (rest : List (κ × α)) :
    ((j, v) :: rest).lookup k = if k == j then some v else rest.lookup k := by
  rw [List.lookup_cons]
  cases k == j <;> rfl

/-- Entries stay as they are exactly when there is a value for a key already. -/
theorem putNew_eq_self_iff {key : κ} {value : α} {entries : List (κ × α)} :
    putNew key value entries = entries ↔ (entries.lookup key).isSome = true := by
  unfold putNew
  cases entries.lookup key <;> simp

variable [LawfulBEq κ]

/-- Where the entries of a key are the same, each entry is found by its key. -/
theorem lookup_of_mem {entries : List (κ × α)}
    (h : ∀ a ∈ entries, ∀ b ∈ entries, a.1 = b.1 → a = b) {k : κ} {v : α} (hmem : (k, v) ∈ entries) :
    entries.lookup k = some v := by
  induction entries with
  | nil => cases hmem
  | cons entry rest ih =>
    obtain ⟨j, w⟩ := entry
    rw [lookup_entry]
    by_cases hk : k = j
    · have hsame := h _ hmem _ List.mem_cons_self hk
      rw [if_pos (by simpa using hk), (Prod.mk.inj hsame).2]
    · have hrest : (k, v) ∈ rest := (List.mem_cons.mp hmem).resolve_left fun heq => hk (Prod.mk.inj heq).1
      rw [if_neg (by simpa using hk)]
      exact ih (fun a ha b hb => h a (List.mem_cons_of_mem _ ha) b (List.mem_cons_of_mem _ hb)) hrest

/-- A key is found with the value that was put for it last. -/
theorem lookup_put (key k : κ) (value : α) (entries : List (κ × α)) :
    (put key value entries).lookup k = if k == key then some value else entries.lookup k := by
  induction entries with
  | nil => simp only [put, lookup_entry]
  | cons entry rest ih =>
    obtain ⟨j, v⟩ := entry
    by_cases hj : j = key
    · subst hj
      simp only [put, beq_self_eq_true, if_true, lookup_entry]
      by_cases hk : k = j <;> simp [hk]
    · simp only [put, beq_iff_eq, hj, if_false, lookup_entry, ih]
      by_cases hk : k = j <;> simp [hk, hj]

/-- A new value counts only for a key that was not there. -/
theorem lookup_putNew (key k : κ) (value : α) (entries : List (κ × α)) :
    (putNew key value entries).lookup k =
      if k == key then some ((entries.lookup key).getD value) else entries.lookup k := by
  unfold putNew
  cases h : entries.lookup key with
  | some v =>
    by_cases hk : k = key
    · simp [hk, h]
    · simp [hk]
  | none =>
    rw [List.lookup_append]
    by_cases hk : k = key
    · simp [hk, h]
    · cases entries.lookup k <;> simp [hk, lookup_entry]

/-- A change of the value of a key starts from the value that was there, or from the given one. -/
theorem lookup_alter (key k : κ) (start : α) (change : α → α) (entries : List (κ × α)) :
    (alter key start change entries).lookup k =
      if k == key then some (change ((entries.lookup key).getD start)) else entries.lookup k :=
  lookup_put key k _ entries

/-- A set with one more member holds this member and those it held. -/
theorem mem_addMember (a b : κ) (members : List κ) :
    b ∈ addMember a members ↔ b = a ∨ b ∈ members := by
  unfold addMember
  by_cases h : a ∈ members
  · have hc : members.contains a = true := by simpa using h
    rw [if_pos hc]
    constructor
    · exact Or.inr
    · rintro (rfl | hb)
      · exact h
      · exact hb
  · have hc : ¬ members.contains a = true := by simpa using h
    rw [if_neg hc]
    simp [or_comm]

/-- Entries stay as they are exactly when the value that is put is there already. -/
theorem put_eq_self_iff {key : κ} {value : α} {entries : List (κ × α)} :
    put key value entries = entries ↔ entries.lookup key = some value := by
  constructor
  · intro h
    rw [← h, lookup_put]
    simp
  · intro h
    induction entries with
    | nil => cases h
    | cons entry rest ih =>
      obtain ⟨j, v⟩ := entry
      rw [lookup_entry] at h
      by_cases hj : key = j
      · subst hj
        obtain rfl : v = value := by simpa using h
        simp [put]
      · have hrest : rest.lookup key = some value := by simpa [hj] using h
        simp [put, Ne.symm hj, ih hrest]

/-- A set stays as it is exactly when it has a member already. -/
theorem addMember_eq_self_iff {a : κ} {members : List κ} : addMember a members = members ↔ a ∈ members := by
  unfold addMember
  by_cases h : a ∈ members <;> simp [h]

/-- A value put for a key that is there leaves what stands behind as it is. -/
theorem put_append_of_lookup {key : κ} {entries : List (κ × α)} (value : α)
    (more : List (κ × α)) (h : (entries.lookup key).isSome) :
    put key value (entries ++ more) = put key value entries ++ more := by
  induction entries with
  | nil => cases h
  | cons entry rest ih =>
    obtain ⟨j, v⟩ := entry
    by_cases hj : j = key
    · simp [put, hj]
    · have hne : ¬ key = j := fun e => hj e.symm
      have hrest : (rest.lookup key).isSome := by simpa [lookup_entry, hne] using h
      simp [put, hj, ih hrest]

/-- A value for a key that is not there is put at the end. -/
theorem put_of_not_mem {key : κ} (value : α) {entries : List (κ × α)} (h : key ∉ entries.map (·.1)) :
    put key value entries = entries ++ [(key, value)] := by
  induction entries with
  | nil => rfl
  | cons entry rest ih =>
    obtain ⟨j, v⟩ := entry
    rw [List.map_cons, List.mem_cons, not_or] at h
    have hne : ¬ j = key := fun heq => h.1 heq.symm
    simp [put, hne, ih h.2]

/-- Pairs with different keys are entries as they stand. -/
theorem ofPairs_of_nodup {pairs : List (κ × α)} (h : (pairs.map (·.1)).Nodup) : ofPairs pairs = pairs := by
  have hfold : ∀ entries : List (κ × α), ((entries ++ pairs).map (·.1)).Nodup →
      pairs.foldl (fun entries pair => put pair.1 pair.2 entries) entries = entries ++ pairs := by
    clear h
    induction pairs with
    | nil => simp
    | cons pair rest ih =>
      intro entries h
      have hfree : pair.1 ∉ entries.map (·.1) := by
        rw [List.map_append, List.nodup_append] at h
        exact fun hmem => h.2.2 _ hmem _ List.mem_cons_self rfl
      rw [List.foldl_cons, put_of_not_mem pair.2 hfree, ih _ (by simpa using h), List.append_assoc,
        List.singleton_append]
  exact hfold [] h

/-- A value for a key that is there and a new value for any key may be put in either order. -/
theorem put_putNew_comm {key : κ} {entries : List (κ × α)} (k : κ) (value new : α)
    (h : (entries.lookup key).isSome) :
    put key value (putNew k new entries) = putNew k new (put key value entries) := by
  have hk : ((put key value entries).lookup k).isSome = (entries.lookup k).isSome := by
    rw [lookup_put]
    by_cases e : k = key
    · simpa [e] using h.symm
    · simp [e]
  unfold putNew
  cases hl : entries.lookup k with
  | some v =>
    obtain ⟨w, hw⟩ := Option.isSome_iff_exists.mp (hk.trans (by rw [hl]; rfl))
    simp [hw]
  | none =>
    have hn : (put key value entries).lookup k = none := by
      rw [← Option.not_isSome_iff_eq_none, hk, hl]
      simp
    simp [hn, put_append_of_lookup value _ h]

end SchemaReconcile.Catalog
