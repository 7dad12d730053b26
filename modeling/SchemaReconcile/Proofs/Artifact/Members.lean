import Mathlib.Data.List.Nodup
import Mathlib.Data.List.Perm.Subperm
import SchemaReconcile.Artifact.Names

/-!
# Members of enumerations are apart

A value gets the name that it is written as, unless an earlier entry has it; then it gets this name with a number.  A
number may be taken as well, by a value that is written with it or by one that has got it.  The search for a number is
given as many tries as there are taken names.  That many suffice: different numbers make different names
(`numbered_injective`), so one of them more than there are taken names cannot all be taken (`exists_leastFree`).

An entry is named after its value and the names of the entries before it (`NamedAfter`), and nothing else.
-/

namespace SchemaReconcile.Artifact

variable {taken taken' : List String} {values : List String} {base : String} {m : Member}

/-! ## Numbered names -/

/-- Different numbers make different names. -/
theorem numbered_injective (base : String) : Function.Injective (numbered base) := by
  intro i j h
  have hlist : (base ++ "_").toList ++ (toString i).toList = (base ++ "_").toList ++ (toString j).toList := by
    rw [← String.toList_append, ← String.toList_append]
    exact congrArg String.toList h
  have hdigits : (toString i).toList = (toString j).toList := List.append_cancel_left hlist
  rw [Nat.toString_eq_repr, Nat.toString_eq_repr, Nat.toList_repr, Nat.toList_repr] at hdigits
  calc
    i = Nat.ofDigitChars 10 (Nat.toDigits 10 i) 0 := Nat.ofDigitChars_ten_toDigits.symm
    _ = Nat.ofDigitChars 10 (Nat.toDigits 10 j) 0 := by rw [hdigits]
    _ = j := Nat.ofDigitChars_ten_toDigits

/-- A name with a number is longer than the name. -/
theorem numbered_ne (base : String) (n : ℕ) : numbered base n ≠ base := by
  intro h
  have hlength := congrArg String.length h
  have hmark : "_".length = 1 := by decide
  rw [numbered, String.length_append, String.length_append, hmark] at hlength
  omega

/-- A number from two on makes a name free, and each smaller one makes a taken name. -/
structure LeastFree (taken : List String) (base : String) (n : ℕ) : Prop where
  two_le : 2 ≤ n
  free : numbered base n ∉ taken
  least : ∀ k, 2 ≤ k → k < n → numbered base k ∈ taken

/-- The search passes taken names, up to the first one that is free or to the end of the tries. -/
theorem exists_freeNumbered (taken : List String) (base : String) (tries n : ℕ) :
    ∃ k, n ≤ k ∧ freeNumbered taken base tries n = numbered base k ∧
      (∀ j, n ≤ j → j < k → numbered base j ∈ taken) ∧ (numbered base k ∈ taken → k = n + tries) := by
  induction tries generalizing n with
  | zero =>
    have hnone : ∀ j, n ≤ j → j < n → numbered base j ∈ taken := fun j hle hlt => by omega
    exact ⟨n, Nat.le_refl _, rfl, hnone, fun _ => rfl⟩
  | succ tries ih =>
    rw [freeNumbered]
    split
    · next htaken =>
      obtain ⟨k, hle, heq, hpassed, hlast⟩ := ih (n + 1)
      refine ⟨k, by omega, heq, fun j hj hlt => ?_, fun hk => ?_⟩
      · rcases Nat.eq_or_lt_of_le hj with rfl | hj
        · exact List.contains_iff_mem.mp htaken
        · exact hpassed j hj hlt
      · have hend := hlast hk
        omega
    · next hfree =>
      have hnone : ∀ j, n ≤ j → j < n → numbered base j ∈ taken := fun j hle hlt => by omega
      exact ⟨n, Nat.le_refl _, rfl, hnone, fun hmem => absurd (List.contains_iff_mem.mpr hmem) hfree⟩

/-- There is a free number, and the search finds the smallest one. -/
theorem exists_leastFree (taken : List String) (base : String) :
    ∃ n, LeastFree taken base n ∧ freeNumbered taken base taken.length 2 = numbered base n := by
  obtain ⟨n, hle, heq, hpassed, hlast⟩ := exists_freeNumbered taken base taken.length 2
  refine ⟨n, ⟨hle, fun hmem => ?_, hpassed⟩, heq⟩
  obtain rfl := hlast hmem
  -- all names up to the last one tried would be taken, and they are one more than there are taken names
  have htried : (List.range' 2 (taken.length + 1)).map (numbered base) ⊆ taken := by
    intro name hname
    obtain ⟨k, hk, rfl⟩ := List.mem_map.mp hname
    obtain ⟨hfrom, hto⟩ := List.mem_range'_1.mp hk
    rcases Nat.lt_or_ge k (2 + taken.length) with hlt | hge
    · exact hpassed k hfrom hlt
    · obtain rfl : k = 2 + taken.length := by omega
      exact hmem
  have hdifferent : ((List.range' 2 (taken.length + 1)).map (numbered base)).Nodup :=
    (List.nodup_range' 1).map (numbered_injective base)
  have hlength := (hdifferent.subperm htried).length_le
  rw [List.length_map, List.length_range'] at hlength
  omega

/-! ## Entries -/

/-- An entry is named after its value when some names are taken: it has the name that the value is written as unless
that is taken, and otherwise this name with the smallest number that makes it free. -/
structure NamedAfter (taken : List String) (m : Member) : Prop where
  kept_iff : m.name = memberBase m.value ↔ memberBase m.value ∉ taken
  suffixed : memberBase m.value ∈ taken →
    ∃ n, LeastFree taken (memberBase m.value) n ∧ m.name = numbered (memberBase m.value) n

/-- It does not matter in which order names were taken. -/
theorem NamedAfter.of_mem_iff (h : NamedAfter taken m) (hmem : ∀ name, name ∈ taken ↔ name ∈ taken') :
    NamedAfter taken' m := by
  refine ⟨h.kept_iff.trans (hmem _).not, fun htaken => ?_⟩
  obtain ⟨n, hn, hname⟩ := h.suffixed ((hmem _).mpr htaken)
  have hleast : ∀ k, 2 ≤ k → k < n → numbered (memberBase m.value) k ∈ taken' :=
    fun k hle hlt => (hmem _).mp (hn.least k hle hlt)
  exact ⟨n, ⟨hn.two_le, fun hfree => hn.free ((hmem _).mpr hfree), hleast⟩, hname⟩

/-- The name that is found for a value. -/
theorem namedAfter_freeName (taken : List String) (value : String) :
    NamedAfter taken ⟨freeName taken (memberBase value), value⟩ := by
  obtain ⟨n, hn, heq⟩ := exists_leastFree taken (memberBase value)
  by_cases htaken : memberBase value ∈ taken
  · have hname : freeName taken (memberBase value) = numbered (memberBase value) n := by
      rw [freeName, if_pos (List.contains_iff_mem.mpr htaken), heq]
    refine ⟨⟨fun hkept => ?_, fun hfree => absurd htaken hfree⟩, fun _ => ⟨n, hn, hname⟩⟩
    exact absurd (hname.symm.trans hkept) (numbered_ne _ n)
  · have hname : freeName taken (memberBase value) = memberBase value :=
      if_neg fun hcontains => htaken (List.contains_iff_mem.mp hcontains)
    exact ⟨⟨fun _ => htaken, fun _ => hname⟩, fun hmem => absurd hmem htaken⟩

/-- A name that is found is free. -/
theorem NamedAfter.not_mem (h : NamedAfter taken m) : m.name ∉ taken := by
  by_cases htaken : memberBase m.value ∈ taken
  · obtain ⟨n, hn, hname⟩ := h.suffixed htaken
    exact hname ▸ hn.free
  · exact (h.kept_iff.mpr htaken) ▸ htaken

/-- There is one entry for each value, in order. -/
theorem map_value_membersFrom (taken values : List String) : (membersFrom taken values).map (·.value) = values := by
  induction values generalizing taken with
  | nil => rfl
  | cons value rest ih => rw [membersFrom, List.map_cons, ih]

/-- The names of entries are different, and none of them was taken before. -/
theorem apart_membersFrom (taken values : List String) :
    ((membersFrom taken values).map (·.name)).Nodup ∧ ∀ m ∈ membersFrom taken values, m.name ∉ taken := by
  induction values generalizing taken with
  | nil => exact ⟨List.nodup_nil, fun m hm => absurd hm List.not_mem_nil⟩
  | cons value rest ih =>
    obtain ⟨hdifferent, hfree⟩ := ih (freeName taken (memberBase value) :: taken)
    have hfirst : freeName taken (memberBase value) ∉ taken := (namedAfter_freeName taken value).not_mem
    rw [membersFrom, List.map_cons, List.nodup_cons, List.forall_mem_cons]
    refine ⟨⟨fun hmem => ?_, hdifferent⟩, hfirst, fun m hm htaken => hfree m hm (List.mem_cons_of_mem _ htaken)⟩
    obtain ⟨m, hm, hname⟩ := List.mem_map.mp hmem
    exact hfree m hm (hname ▸ List.mem_cons_self)

/-- Each entry is named after its value when the names of the entries before it are taken as well. -/
theorem namedAfter_of_membersFrom {before after : List Member}
    (h : membersFrom taken values = before ++ m :: after) : NamedAfter (before.map (·.name) ++ taken) m := by
  induction values generalizing taken before with
  | nil => simp [membersFrom] at h
  | cons value rest ih =>
    rw [membersFrom] at h
    cases before with
    | nil =>
      obtain ⟨rfl, -⟩ := List.cons.inj h
      exact namedAfter_freeName taken value
    | cons first before =>
      obtain ⟨rfl, hrest⟩ := List.cons.inj h
      refine (ih hrest).of_mem_iff fun name => ?_
      simp only [List.map_cons, List.mem_append, List.mem_cons]
      exact or_left_comm.trans or_assoc.symm

/-- The entries of an enumeration carry its values in order, under different names.  Each is named after its value and
the entries before it: it has the name that the value is written as exactly when none of them has that name, and
otherwise this name with the smallest number from two on that none of them has; there always is such a number. -/
theorem members_apart (values : List String) :
    (members values).map (·.value) = values ∧ ((members values).map (·.name)).Nodup ∧
    ∀ before m after, members values = before ++ m :: after → NamedAfter (before.map (·.name)) m := by
  refine ⟨map_value_membersFrom [] values, (apart_membersFrom [] values).1, fun before m after h => ?_⟩
  have hnamed := namedAfter_of_membersFrom h
  rwa [List.append_nil] at hnamed

/-- A number may be taken by a value that is written with it. -/
theorem members_apart_numbers :
    members ["A-B", "A_B_2", "A_B"] = [⟨"A_B", "A-B"⟩, ⟨"A_B_2", "A_B_2"⟩] ++ ⟨"A_B_3", "A_B"⟩ :: [] ∧
    NamedAfter ["A_B", "A_B_2"] ⟨"A_B_3", "A_B"⟩ := by
  have hmembers :
      members ["A-B", "A_B_2", "A_B"] = [⟨"A_B", "A-B"⟩, ⟨"A_B_2", "A_B_2"⟩] ++ ⟨"A_B_3", "A_B"⟩ :: [] := by
    decide
  obtain ⟨-, -, hnamed⟩ := members_apart ["A-B", "A_B_2", "A_B"]
  exact ⟨hmembers, hnamed _ _ _ hmembers⟩

end SchemaReconcile.Artifact
