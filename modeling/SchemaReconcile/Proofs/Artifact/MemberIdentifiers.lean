import SchemaReconcile.Proofs.Artifact.Members
import SchemaReconcile.Proofs.Artifact.Usable
import SchemaReconcile.Proofs.Text.Identifier
import SchemaReconcile.Proofs.Text.Integer

/-!
# Members that can be written

The name of a member keeps the letters and digits of its value, and these are not the characters that an identifier
may have: a superscript digit or a fraction is among them and cannot stand in an identifier, and a letter may be one
that can stand in an identifier but not in front.  `Writable` says of a value that it has no such letter or digit.
The member of a value is an identifier exactly then (`isIdentifier_memberBase`), and it never is a keyword.  A number
behind the name changes neither.
-/

namespace SchemaReconcile.Artifact

open Text (isIdentifier isIdentifierStart isIdentifierContinue isLetterOrDigit isDigitLike isIdentifier_cons
  exists_cons_of_isIdentifier isIdentifierContinue_of_start continue_of_isIdentifier isIdentifier_append)

variable {name value base : String} {c : Char} {rest : List Char}

/-- The letters and digits of a value can stand in an identifier, and a first one can stand in front, or it has a digit
value and gets an underscore. -/
structure Writable (value : String) : Prop where
  continues : ∀ c ∈ value.toList, isLetterOrDigit c = true → isIdentifierContinue c = true
  starts : ∀ c ∈ value.toList.head?, isLetterOrDigit c = true → isIdentifierStart c = true ∨ isDigitLike c = true

/-- Values with ASCII letters and digits only can be written, whatever other characters they have. -/
theorem writable_of_ascii (h : ∀ c ∈ value.toList, isLetterOrDigit c = true → c.toNat < 128) : Writable value := by
  refine ⟨fun c hc hword => Text.continue_of_ascii (h c hc hword) hword, fun c hc hword => ?_⟩
  have hmem : c ∈ value.toList := List.mem_of_mem_head? hc
  exact Text.start_or_digit_of_ascii (h c hmem hword) hword

/-- The empty value can be written. -/
theorem writable_of_nil (h : value.toList = []) : Writable value := by
  constructor
  · rw [h]
    exact fun c hc => absurd hc List.not_mem_nil
  · rw [h]
    exact fun c hc => absurd hc (Option.not_mem_none c)

/-- What a value with a first character needs so that it can be written. -/
theorem writable_iff_of_cons (h : value.toList = c :: rest) :
    Writable value ↔ (∀ d ∈ c :: rest, isLetterOrDigit d = true → isIdentifierContinue d = true) ∧
      (isLetterOrDigit c = true → isIdentifierStart c = true ∨ isDigitLike c = true) := by
  have hhead : c ∈ value.toList.head? := by
    rw [h]
    rfl
  constructor
  · exact fun hvalue => ⟨h ▸ hvalue.continues, hvalue.starts c hhead⟩
  · rintro ⟨hcontinues, hstarts⟩
    refine ⟨h ▸ hcontinues, fun d hd => ?_⟩
    obtain rfl : c = d := Option.mem_unique hhead hd
    exact hstarts

/-- An identifier can be written: all its characters can be where they are. -/
theorem writable_of_isIdentifier (h : isIdentifier value.toList = true) : Writable value := by
  obtain ⟨c, rest, hvalue, hstart⟩ := exists_cons_of_isIdentifier h
  refine (writable_iff_of_cons hvalue).mpr ⟨fun d hd _ => ?_, fun _ => .inl hstart⟩
  exact continue_of_isIdentifier h d (hvalue ▸ hd)

/-! ## Characters -/

/-- The character that stands for a character of a value: itself if it is a letter, a digit or an underscore. -/
def wordChar (c : Char) : Char := if isLetterOrDigit c || c == '_' then c else '_'

/-- A letter or digit stands for itself. -/
theorem wordChar_of_letterOrDigit (h : isLetterOrDigit c = true) : wordChar c = c := by
  rw [wordChar, h, Bool.true_or, if_pos rfl]

/-- An underscore stands for every other character. -/
theorem wordChar_of_not_letterOrDigit (h : ¬ isLetterOrDigit c = true) : wordChar c = '_' := by
  rw [wordChar]
  split
  · next hword => simpa [h] using hword
  · rfl

/-- What stands for a character can go on an identifier unless the character is a letter or digit that cannot. -/
theorem continue_wordChar :
    isIdentifierContinue (wordChar c) = true ↔ (isLetterOrDigit c = true → isIdentifierContinue c = true) := by
  by_cases h : isLetterOrDigit c = true
  · rw [wordChar_of_letterOrDigit h]
    exact (imp_iff_right h).symm
  · rw [wordChar_of_not_letterOrDigit h]
    exact iff_of_true (by decide) fun hword => absurd hword h

/-- What stands for a character can stand in front of an identifier, or behind an underscore there, unless the
character is a letter or digit that can do neither. -/
theorem start_wordChar :
    isIdentifierStart (wordChar c) = true ∨ isDigitLike (wordChar c) = true ↔
      (isLetterOrDigit c = true → isIdentifierStart c = true ∨ isDigitLike c = true) := by
  by_cases h : isLetterOrDigit c = true
  · rw [wordChar_of_letterOrDigit h]
    exact (imp_iff_right h).symm
  · rw [wordChar_of_not_letterOrDigit h]
    exact iff_of_true (.inl (by decide)) fun hword => absurd hword h

/-! ## Names -/

/-- A value that is no identifier is written character by character. -/
theorem toList_sanitized (h : ¬ isIdentifier value.toList = true) :
    (sanitized value).toList = value.toList.map wordChar := by
  rw [sanitized, if_neg h, String.toList_ofList]
  rfl

/-- With an underscore in front of a digit, a name is an identifier when its characters can go on one, and the first is
a digit or can start one. -/
theorem isIdentifier_undigited (h : name.toList = c :: rest) :
    isIdentifier (undigited name).toList = true ↔
      (∀ d ∈ c :: rest, isIdentifierContinue d = true) ∧ (isIdentifierStart c = true ∨ isDigitLike c = true) := by
  have hundigited : undigited name = if isDigitLike c then "_" ++ name else name := by
    rw [undigited, h]
  rw [hundigited]
  split
  · next hdigit =>
    have hlist : ("_" ++ name).toList = '_' :: c :: rest := by
      rw [String.toList_append, h]
      rfl
    have hlow : isIdentifierStart '_' = true := by decide
    rw [hlist, isIdentifier_cons]
    exact (and_iff_right hlow).trans (and_iff_left (.inr hdigit)).symm
  · next hdigit =>
    rw [h, isIdentifier_cons, List.forall_mem_cons, or_iff_left hdigit]
    constructor
    · exact fun ⟨hstart, hrest⟩ => ⟨⟨isIdentifierContinue_of_start hstart, hrest⟩, hstart⟩
    · exact fun ⟨⟨_, hrest⟩, hstart⟩ => ⟨hstart, hrest⟩

/-- The name that a value is written as is an identifier exactly when the value can be written. -/
theorem isIdentifier_memberBase (value : String) : isIdentifier (memberBase value).toList = true ↔ Writable value := by
  rw [memberBase, isIdentifier_unreserved]
  by_cases hident : isIdentifier value.toList = true
  · obtain ⟨c, rest, hvalue, hstart⟩ := exists_cons_of_isIdentifier hident
    have hsanitized : sanitized value = value := if_pos hident
    rw [hsanitized, isIdentifier_undigited hvalue, ← hvalue]
    exact iff_of_true ⟨continue_of_isIdentifier hident, .inl hstart⟩ (writable_of_isIdentifier hident)
  · have hlist := toList_sanitized hident
    cases hvalue : value.toList with
    | nil =>
      have hempty : sanitized value = "" := by
        rw [← String.toList_inj, hlist, hvalue]
        rfl
      rw [hempty]
      exact iff_of_true (by decide) (writable_of_nil hvalue)
    | cons c rest =>
      rw [hvalue, List.map_cons] at hlist
      rw [isIdentifier_undigited hlist, ← List.map_cons, List.forall_mem_map, start_wordChar,
        writable_iff_of_cons hvalue]
      exact and_congr_left' (forall₂_congr fun d _ => continue_wordChar)

/-- The name that a value is written as is not empty. -/
theorem memberBase_ne (value : String) : (memberBase value).toList ≠ [] := by
  have hundigited : ∀ name, (undigited name).toList ≠ [] := by
    intro name
    unfold undigited
    split
    · decide
    · next c rest hname =>
      split
      · rw [String.toList_append]
        exact List.append_ne_nil_of_left_ne_nil (by decide) _
      · rw [hname]
        exact List.cons_ne_nil c rest
  unfold memberBase unreserved
  split
  · rw [String.toList_append]
    exact List.append_ne_nil_of_left_ne_nil (hundigited _) _
  · exact hundigited _

/-! ## Numbers -/

/-- The characters of a number that is put behind a name. -/
theorem toList_numbered (base : String) (n : ℕ) :
    (numbered base n).toList = base.toList ++ '_' :: Nat.toDigits 10 n := by
  rw [numbered, String.toList_append, String.toList_append, Nat.toString_eq_repr, Nat.toList_repr, List.append_assoc]
  rfl

/-- A name with a number is an identifier exactly when the name is. -/
theorem isIdentifier_numbered (hbase : base.toList ≠ []) (n : ℕ) :
    isIdentifier (numbered base n).toList = true ↔ isIdentifier base.toList = true := by
  have hdigits : "0123456789".toList.all isIdentifierContinue = true := by decide
  have hnumber : ∀ c ∈ '_' :: Nat.toDigits 10 n, isIdentifierContinue c = true := by
    rw [List.forall_mem_cons]
    exact ⟨by decide, fun c hc => List.all_eq_true.mp hdigits c (Text.mem_decimalAlphabet hc)⟩
  rw [toList_numbered, isIdentifier_append hbase hnumber]

/-- A name with a number is no keyword. -/
theorem numbered_not_mem_keywords (base : String) (n : ℕ) : numbered base n ∉ keywords := by
  have hnone : ∀ k ∈ keywords, '_' ∉ k.toList := by decide
  intro hmem
  have hlow : '_' ∈ (numbered base n).toList := by
    rw [toList_numbered]
    simp
  exact hnone _ hmem hlow

/-! ## Members -/

/-- An entry that is named after its value is no keyword, and it is an identifier exactly when the value can be
written. -/
theorem NamedAfter.usable_iff {taken : List String} {m : Member} (h : NamedAfter taken m) :
    m.name ∉ keywords ∧ (isIdentifier m.name.toList = true ↔ Writable m.value) := by
  by_cases htaken : memberBase m.value ∈ taken
  · obtain ⟨n, -, hname⟩ := h.suffixed htaken
    rw [hname, isIdentifier_numbered (memberBase_ne m.value)]
    exact ⟨numbered_not_mem_keywords _ n, isIdentifier_memberBase m.value⟩
  · have hname : m.name = memberBase m.value := h.kept_iff.mpr htaken
    rw [hname]
    exact ⟨unreserved_not_mem_keywords _, isIdentifier_memberBase m.value⟩

/-- Every entry of an enumeration is named after its value. -/
theorem exists_namedAfter {values : List String} {m : Member} (h : m ∈ members values) :
    ∃ taken, NamedAfter taken m := by
  obtain ⟨before, after, heq⟩ := List.append_of_mem h
  exact ⟨_, namedAfter_of_membersFrom heq⟩

/-- A member of an enumeration is no keyword, and it can be written exactly when its value can. -/
theorem usable_member_iff {values : List String} {m : Member} (h : m ∈ members values) :
    m.name ∉ keywords ∧ (Usable m.name ↔ Writable m.value) := by
  obtain ⟨taken, hnamed⟩ := exists_namedAfter h
  obtain ⟨hfree, hident⟩ := hnamed.usable_iff
  exact ⟨hfree, (and_iff_left hfree).trans hident⟩

/-- All members of an enumeration can be written exactly when all values can. -/
theorem forall_usable_member_iff {values : List String} :
    (∀ m ∈ members values, Usable m.name) ↔ ∀ value ∈ values, Writable value := by
  have hvalues : (members values).map (·.value) = values := map_value_membersFrom [] values
  constructor
  · intro h value hvalue
    rw [← hvalues] at hvalue
    obtain ⟨m, hm, rfl⟩ := List.mem_map.mp hvalue
    exact (usable_member_iff hm).2.mp (h m hm)
  · intro h m hm
    refine (usable_member_iff hm).2.mpr (h m.value ?_)
    rw [← hvalues]
    exact List.mem_map_of_mem hm

/-- No member of an enumeration is a keyword, and a member is an identifier exactly when its value can be written.  So
all members can be written exactly when all values can; values whose letters and digits are ASCII always can. -/
theorem members_usable_iff (values : List String) :
    (∀ m ∈ members values, m.name ∉ keywords ∧ (Usable m.name ↔ Writable m.value)) ∧
    ((∀ m ∈ members values, Usable m.name) ↔ ∀ value ∈ values, Writable value) ∧
    ∀ value ∈ values, (∀ c ∈ value.toList, isLetterOrDigit c = true → c.toNat < 128) → Writable value :=
  ⟨fun _ => usable_member_iff, forall_usable_member_iff, fun _ _ => writable_of_ascii⟩

/-- Members that get underscores, one of them for a keyword, can be written. -/
theorem members_usable_iff_moods :
    (members ["in-progress", "1st", "class", ""]).map (·.name) = ["in_progress", "_1st", "class_", "_"] ∧
    ∀ m ∈ members ["in-progress", "1st", "class", ""], Usable m.name := by
  obtain ⟨-, hall, hascii⟩ := members_usable_iff ["in-progress", "1st", "class", ""]
  have hvalues : ∀ value ∈ ["in-progress", "1st", "class", ""],
      value.toList.all (fun c => decide (isLetterOrDigit c = true → c.toNat < 128)) = true := by decide
  refine ⟨by decide, hall.mpr fun value hvalue => hascii value hvalue fun c hc => ?_⟩
  exact of_decide_eq_true (List.all_eq_true.mp (hvalues value hvalue) c hc)

/-- A superscript digit is kept, and it cannot stand in an identifier. -/
theorem superscript_not_usable :
    (⟨"_²", "²"⟩ : Member) ∈ members ["²"] ∧ "_²" ∉ keywords ∧ ¬ Usable "_²" := by
  refine ⟨by decide +kernel, by decide, by decide +kernel⟩

end SchemaReconcile.Artifact
