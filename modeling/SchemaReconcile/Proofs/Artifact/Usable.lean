import SchemaReconcile.Artifact.Manifest
import SchemaReconcile.Proofs.Naming.Spelling

/-!
# Names that can be written

A name can stand where the generated sources need one when it is an identifier and no keyword (`Usable`).  Safe
names are plain up to a line feed at their end, so a safe name is an identifier unless it has one
(`isIdentifier_iff`).  What is left are keywords, and the three ways in which a name is written differ there:

* an attribute that is a keyword gets an underscore, so keywords do no harm (`usable_unreserved`);
* a class name starts with an upper-case letter, and the only keywords that do are three constants
  (`usable_className`);
* the name of a module is the snake case of a name, which may be any of the keywords (`usable_moduleName`).

A class name forgets the case of the first letter and nothing else (`className_eq_iff`).
-/

namespace SchemaReconcile.Artifact

open Naming (isSafe isSafeStart isSafeContinue Plain plain_iff)

/-- A name can be written where an identifier is expected. -/
def Usable (name : String) : Prop := Text.isIdentifier name.toList = true ∧ name ∉ keywords

/-- Whether a name can be written can be computed. -/
instance (name : String) : Decidable (Usable name) := inferInstanceAs (Decidable (_ ∧ _))

/-- The keywords that start with an upper-case letter, and the names that become them as names of classes. -/
def constantNames : List String := ["False", "false", "None", "none", "True", "true"]

variable {name : String}

/-! ## Identifiers -/

/-- The characters of a safe name are ASCII. -/
theorem toNat_lt_of_isSafe (h : isSafe name = true) : ∀ c ∈ name.toList, c.toNat < 128 :=
  Naming.toNat_lt_of_worded (Naming.spelled_of_isSafe h).worded

/-- A safe name is an identifier unless it has a line feed. -/
theorem isIdentifier_iff (h : isSafe name = true) :
    Text.isIdentifier name.toList = true ↔ '\n' ∉ name.toList := by
  constructor
  · intro hident hmem
    cases hname : name.toList with
    | nil =>
      rw [hname] at hmem
      cases hmem
    | cons c rest =>
      rw [hname] at hident hmem
      obtain ⟨hstart, hrest⟩ := Bool.and_eq_true_iff.mp hident
      rcases List.mem_cons.mp hmem with rfl | hmem
      · exact absurd hstart (by decide)
      · exact absurd (List.all_eq_true.mp hrest _ hmem) (by decide)
  · intro hnone
    have hascii := toNat_lt_of_isSafe h
    obtain ⟨c, rest, hname, hstart, hrest⟩ := plain_iff.mp (Naming.plain_of_isSafe h hnone)
    rw [hname, List.forall_mem_cons] at hascii
    rw [hname]
    refine Bool.and_eq_true_iff.mpr ⟨?_, List.all_eq_true.mpr fun d hd => ?_⟩
    · rw [Text.isIdentifierStart, if_pos hascii.1]
      exact hstart
    · rw [Text.isIdentifierContinue, if_pos (hascii.2 d hd)]
      exact hrest d hd

/-- A safe name can be written unless it has a line feed or is a keyword. -/
theorem usable_iff (h : isSafe name = true) : Usable name ↔ '\n' ∉ name.toList ∧ name ∉ keywords :=
  and_congr_left' (isIdentifier_iff h)

/-- A keyword is an identifier, and with an underscore behind it is a safe name and no keyword. -/
theorem underscored_keyword (h : name ∈ keywords) :
    '\n' ∉ name.toList ∧ isSafe (name ++ "_") = true ∧ name ++ "_" ∉ keywords := by
  have hall : ∀ k ∈ keywords, '\n' ∉ k.toList ∧ isSafe (k ++ "_") = true ∧ k ++ "_" ∉ keywords := by
    decide
  exact hall name h

/-- A keyword is written with a mark. -/
theorem unreserved_of_mem (h : name ∈ keywords) : unreserved name = name ++ "_" :=
  if_pos (List.contains_iff_mem.mpr h)

/-- Another name is written as it is. -/
theorem unreserved_of_not_mem (h : name ∉ keywords) : unreserved name = name :=
  if_neg fun hcontains => h (List.contains_iff_mem.mp hcontains)

/-- No name is written as a keyword. -/
theorem unreserved_not_mem_keywords (name : String) : unreserved name ∉ keywords := by
  by_cases hkeyword : name ∈ keywords
  · rw [unreserved_of_mem hkeyword]
    exact (underscored_keyword hkeyword).2.2
  · rwa [unreserved_of_not_mem hkeyword]

/-- A name and what it is written as are both identifiers, or none is. -/
theorem isIdentifier_unreserved (name : String) :
    Text.isIdentifier (unreserved name).toList = true ↔ Text.isIdentifier name.toList = true := by
  by_cases hkeyword : name ∈ keywords
  · have hall : ∀ k ∈ keywords, Text.isIdentifier k.toList = true ∧ Text.isIdentifier (k ++ "_").toList = true := by
      decide
    obtain ⟨hname, hlow⟩ := hall name hkeyword
    rw [unreserved_of_mem hkeyword]
    exact iff_of_true hlow hname
  · rw [unreserved_of_not_mem hkeyword]

/-- An attribute can be written unless its name has a line feed. -/
theorem usable_unreserved (h : isSafe name = true) : Usable (unreserved name) ↔ '\n' ∉ name.toList := by
  rw [Usable, isIdentifier_unreserved, isIdentifier_iff h]
  exact and_iff_left (unreserved_not_mem_keywords name)

/-- A module can be written unless its entity has a line feed or the snake case of a keyword. -/
theorem usable_moduleName (h : isSafe name = true) :
    Usable (moduleName name) ↔ '\n' ∉ name.toList ∧ moduleName name ∉ keywords := by
  have hline := Naming.lineFeed_mem_snakeCase (Naming.spelled_of_isSafe h).worded
  rw [moduleName, usable_iff (Naming.isSafe_snakeCase h), hline]

/-! ## Class names -/

/-- A safe name starts with an ASCII character, and its class name differs there only. -/
theorem exists_toList_className (h : isSafe name = true) :
    ∃ c rest, c.toNat < 128 ∧ isSafeStart c = true ∧ Naming.isSafeRest rest = true ∧
      name.toList = c :: rest ∧ (className name).toList = c.toUpper :: rest := by
  have hascii := toNat_lt_of_isSafe h
  unfold isSafe at h
  unfold className
  cases hname : name.toList with
  | nil =>
    rw [hname] at h
    cases h
  | cons c rest =>
    rw [hname] at h
    rw [hname, List.forall_mem_cons] at hascii
    obtain ⟨hstart, hrest⟩ := Bool.and_eq_true_iff.mp h
    refine ⟨c, rest, hascii.1, hstart, hrest, rfl, ?_⟩
    have hupper : Text.upperChar c = [c.toUpper] := if_pos hascii.1
    simp only [hupper, String.toList_ofList, List.singleton_append]

/-- Upper case keeps a character that a safe name may start with, and gives the same as lower case does for the
same characters. -/
theorem toUpper_start {c : Char} (h : c.toNat < 128) :
    (isSafeStart c = true → isSafeStart c.toUpper = true) ∧ c.toUpper.toLower = c.toLower ∧
      c.toLower.toUpper = c.toUpper ∧ (c.toUpper = '\n' ↔ c = '\n') := by
  have hall : ∀ n < 128, (isSafeStart (Char.ofNat n) = true → isSafeStart (Char.ofNat n).toUpper = true) ∧
      (Char.ofNat n).toUpper.toLower = (Char.ofNat n).toLower ∧
      (Char.ofNat n).toLower.toUpper = (Char.ofNat n).toUpper ∧
      ((Char.ofNat n).toUpper = '\n' ↔ Char.ofNat n = '\n') := by decide
  have hc := hall c.toNat h
  rwa [Char.ofNat_toNat] at hc

/-- The class name of a safe name is safe. -/
theorem isSafe_className (h : isSafe name = true) : isSafe (className name) = true := by
  obtain ⟨c, rest, hascii, hstart, hrest, -, hclass⟩ := exists_toList_className h
  rw [isSafe, hclass]
  exact Bool.and_eq_true_iff.mpr ⟨(toUpper_start hascii).1 hstart, hrest⟩

/-- The class name of a safe name has a line feed exactly when the name does. -/
theorem lineFeed_mem_className (h : isSafe name = true) :
    '\n' ∈ (className name).toList ↔ '\n' ∈ name.toList := by
  obtain ⟨c, rest, hascii, -, -, hname, hclass⟩ := exists_toList_className h
  have hfirst := (toUpper_start hascii).2.2.2
  rw [hname, hclass, List.mem_cons, List.mem_cons, eq_comm, hfirst, eq_comm]

/-- Two names are the same but for the case of their first letters. -/
def SameButFirst (a b : String) : Prop :=
  ∃ c d rest, a.toList = c :: rest ∧ b.toList = d :: rest ∧ c.toLower = d.toLower

/-- A class name forgets the case of the first letter, and nothing else. -/
theorem className_eq_iff {a b : String} (ha : isSafe a = true) (hb : isSafe b = true) :
    className a = className b ↔ SameButFirst a b := by
  obtain ⟨c, rest, hc, -, -, haname, haclass⟩ := exists_toList_className ha
  obtain ⟨d, rest', hd, -, -, hbname, hbclass⟩ := exists_toList_className hb
  obtain ⟨-, hclower, hcupper, -⟩ := toUpper_start hc
  obtain ⟨-, hdlower, hdupper, -⟩ := toUpper_start hd
  rw [← String.toList_inj, haclass, hbclass, List.cons.injEq]
  constructor
  · rintro ⟨hfirst, rfl⟩
    refine ⟨c, d, rest, haname, hbname, ?_⟩
    rw [← hclower, ← hdlower, hfirst]
  · rintro ⟨c', d', rest'', ha', hb', hlower⟩
    obtain ⟨rfl, rfl⟩ := List.cons.inj (haname.symm.trans ha')
    obtain ⟨rfl, rfl⟩ := List.cons.inj (hbname.symm.trans hb')
    refine ⟨?_, rfl⟩
    rw [← hcupper, ← hdupper, hlower]

/-- A name in the form of a class name is its own class name. -/
theorem className_className (h : isSafe name = true) : className (className name) = className name := by
  obtain ⟨c, rest, hascii, -, -, hname, hclass⟩ := exists_toList_className h
  refine (className_eq_iff (isSafe_className h) h).mpr ⟨c.toUpper, c, rest, hclass, hname, ?_⟩
  exact (toUpper_start hascii).2.1

/-- A class name is a keyword exactly when the name is one of the constants, in either case. -/
theorem className_mem_keywords (h : isSafe name = true) :
    className name ∈ keywords ↔ name ∈ constantNames := by
  constructor
  · intro hmem
    -- the keywords in lower case are no class names
    have hupper : ∀ k ∈ keywords, className k = k → k ∈ ["False", "None", "True"] := by decide
    have hconstant := hupper _ hmem (className_className h)
    have hspelled : ∀ k ∈ ["False", "None", "True"], ∀ n < 128, (Char.ofNat n).toUpper = k.toList.headD ' ' →
        String.ofList (Char.ofNat n :: k.toList.tail) ∈ constantNames := by decide +kernel
    obtain ⟨c, rest, hascii, -, -, hname, hclass⟩ := exists_toList_className h
    have hname' := hspelled _ hconstant c.toNat hascii (by rw [Char.ofNat_toNat, hclass]; rfl)
    rw [Char.ofNat_toNat, hclass, List.tail_cons, ← hname, String.ofList_toList] at hname'
    exact hname'
  · have hall : ∀ k ∈ constantNames, className k ∈ keywords := by decide
    exact hall name

/-- A class can be written unless its name has a line feed or is one of the constants. -/
theorem usable_className (h : isSafe name = true) :
    Usable (className name) ↔ '\n' ∉ name.toList ∧ name ∉ constantNames := by
  rw [usable_iff (isSafe_className h), lineFeed_mem_className h, className_mem_keywords h]

end SchemaReconcile.Artifact
