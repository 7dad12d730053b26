import Mathlib.Data.String.Basic
import SchemaReconcile.Proofs.Naming.Hashes

/-!
# The spelling of generated names

A plain name is an ASCII letter or underscore followed by letters, digits and underscores.  Safe names are
the plain ones, and those with one line feed behind (`isSafe_iff`).  A generated name is put together from
others, so it may hold a line feed anywhere; but it holds no other character that its parts do not
(`Spelled`), and it is plain where they are.

Each byte of such a name is one character.  So a name that was shortened is within the limit, and the type
of an enumeration is longer than its schema by a constant (`size_enumTypeOf`).
-/

namespace SchemaReconcile.Naming

open Text (shortHash hexDigit hexDigits)

/-! ## Word characters -/

/-- A text has word characters, and perhaps some others. -/
def Worded (others : List Char) (text : String) : Prop :=
  ∀ c ∈ text.toList, isSafeContinue c = true ∨ c ∈ others

/-- A name has word characters, and perhaps some others; the first is a letter or an underscore. -/
structure Spelled (others : List Char) (name : String) : Prop where
  start : ∃ c ∈ name.toList.head?, isSafeStart c = true
  worded : Worded others name

/-- A name has word characters only, and does not start with a digit. -/
abbrev Plain (name : String) : Prop := Spelled [] name

/-- Whether a text has word characters can be computed. -/
instance (others : List Char) (text : String) : Decidable (Worded others text) :=
  -- named, since inference may find the instance that goes through all characters there are
  List.decidableBAll (fun c => isSafeContinue c = true ∨ c ∈ others) text.toList

variable {others : List Char}

/-- A text without other characters may go with any. -/
theorem Worded.mono {text : String} (h : Worded [] text) (others : List Char) : Worded others text :=
  fun c hc => (h c hc).imp id fun hnone => absurd hnone List.not_mem_nil

/-- Texts side by side have word characters when both have. -/
theorem worded_append {a b : String} :
    Worded others (a ++ b) ↔ Worded others a ∧ Worded others b := by
  unfold Worded
  rw [String.toList_append, List.forall_mem_append]

/-- Texts with an underscore between them have word characters when each has. -/
theorem worded_intercalate {parts : List String} (h : ∀ part ∈ parts, Worded others part) :
    Worded others ("_".intercalate parts) := by
  induction parts with
  | nil =>
    intro c hc
    rw [String.intercalate_nil] at hc
    cases hc
  | cons part rest ih =>
    obtain ⟨hpart, hrest⟩ := List.forall_mem_cons.mp h
    by_cases hnil : rest = []
    · rwa [hnil, String.intercalate_singleton]
    · rw [String.intercalate_cons_of_ne_nil hnil, worded_append, worded_append]
      exact ⟨⟨hpart, .mono (by decide) _⟩, ih hrest⟩

/-- Hexadecimal digits are word characters. -/
theorem isSafeContinue_of_mem_hexDigits {width n : ℕ} {c : Char} (h : c ∈ hexDigits width n) :
    isSafeContinue c = true := by
  induction width generalizing n with
  | zero => cases h
  | succ width ih =>
    rcases List.mem_append.mp h with h | h
    · exact ih h
    · have hdigit : ∀ k < 16, isSafeContinue (hexDigit k) = true := by decide
      rw [List.mem_singleton.mp h]
      exact hdigit _ (Nat.mod_lt _ (by decide))

/-- A short hash has word characters. -/
theorem worded_shortHash (name : String) : Worded others (shortHash name) := by
  intro c hc
  rw [shortHash, String.toList_ofList] at hc
  exact .inl (isSafeContinue_of_mem_hexDigits hc)

namespace Spelled

/-- A name goes on with a text. -/
theorem append {a b : String} (ha : Spelled others a) (hb : Worded others b) :
    Spelled others (a ++ b) := by
  obtain ⟨⟨c, hc, hstart⟩, hworded⟩ := ha
  refine ⟨⟨c, ?_, hstart⟩, worded_append.mpr ⟨hworded, hb⟩⟩
  rw [Option.mem_def] at hc ⊢
  rw [String.toList_append, List.head?_append, hc]
  rfl

/-- A shortened name is spelled as the whole name. -/
theorem bounded {name : String} (h : Spelled others name) : Spelled others (bounded name) := by
  by_cases hlong : IsLong name
  · obtain ⟨⟨c, hc, hstart⟩, hworded⟩ := h
    obtain ⟨rest, hrest⟩ : ∃ rest, name.toList = c :: rest := List.head?_eq_some_iff.mp hc
    refine ⟨⟨c, ?_, hstart⟩, ?_⟩
    · rw [toList_bounded_of_long hlong, hrest]
      rfl
    · intro d hd
      rw [toList_bounded_of_long hlong, List.append_assoc] at hd
      rcases List.mem_append.mp hd with hd | hd
      · exact hworded d (List.mem_of_mem_take hd)
      · rcases List.mem_append.mp hd with hd | hd
        · rw [List.mem_singleton.mp hd]
          exact .inl rfl
        · exact worded_shortHash name d hd
  · rwa [bounded_of_not_long hlong]

/-- Other characters that a name does not hold need not be named. -/
theorem without {name : String} (h : Spelled others name) (hnone : ∀ c ∈ others, c ∉ name.toList) :
    Plain name := by
  refine ⟨h.start, fun c hc => ?_⟩
  rcases h.worded c hc with hword | hother
  · exact .inl hword
  · exact absurd hc (hnone c hother)

/-- More characters may be named. -/
theorem mono {name : String} (h : Plain name) (others : List Char) : Spelled others name :=
  ⟨h.start, h.worded.mono others⟩

end Spelled

/-! ## Safe names -/

/-- The characters behind the first of a safe name are word characters, with perhaps a line feed at the
end. -/
theorem isSafeRest_iff {cs : List Char} :
    isSafeRest cs = true ↔
      ∃ body, (∀ c ∈ body, isSafeContinue c = true) ∧ (cs = body ∨ cs = body ++ ['\n']) := by
  constructor
  · intro h
    induction cs using isSafeRest.induct with
    | case1 => exact ⟨[], by simp⟩
    | case2 => exact ⟨[], by simp⟩
    | case3 c rest hne ih =>
      rw [isSafeRest.eq_3 c rest hne, Bool.and_eq_true] at h
      obtain ⟨body, hbody, hrest⟩ := ih h.2
      refine ⟨c :: body, List.forall_mem_cons.mpr ⟨h.1, hbody⟩, ?_⟩
      rcases hrest with rfl | rfl
      · exact .inl rfl
      · exact .inr rfl
  · rintro ⟨body, hbody, hcs⟩
    induction body generalizing cs with
    | nil => rcases hcs with rfl | rfl <;> rfl
    | cons c body ih =>
      obtain ⟨hc, hbody⟩ := List.forall_mem_cons.mp hbody
      have hne : c ≠ '\n' := by
        rintro rfl
        exact absurd hc (by decide)
      rcases hcs with rfl | rfl
      · rw [isSafeRest.eq_3 c body (fun heq => absurd heq hne), Bool.and_eq_true]
        exact ⟨hc, ih hbody (.inl rfl)⟩
      · rw [List.cons_append, isSafeRest.eq_3 c _ (fun heq => absurd heq hne), Bool.and_eq_true]
        exact ⟨hc, ih hbody (.inr rfl)⟩

/-- What may follow the start of a safe name, character by character. -/
theorem isSafeRest_cons {c : Char} {cs : List Char} :
    isSafeRest (c :: cs) = true ↔
      c = '\n' ∧ cs = [] ∨ isSafeContinue c = true ∧ isSafeRest cs = true := by
  by_cases hend : c = '\n' ∧ cs = []
  · obtain ⟨rfl, rfl⟩ := hend
    simp [isSafeRest]
  · rw [isSafeRest.eq_3 c cs (fun hc hcs => hend ⟨hc, hcs⟩), Bool.and_eq_true]
    exact (or_iff_right hend).symm

/-- What makes a name safe, character by character. -/
theorem isSafe_ofList_cons {c : Char} {cs : List Char} :
    isSafe (String.ofList (c :: cs)) = true ↔ isSafeStart c = true ∧ isSafeRest cs = true := by
  rw [isSafe, String.toList_ofList, Bool.and_eq_true]

/-- A name may go on with the characters that it may start with. -/
theorem isSafeContinue_of_start {c : Char} (h : isSafeStart c = true) : isSafeContinue c = true := by
  rw [isSafeStart, Bool.or_eq_true] at h
  rw [isSafeContinue, Char.isAlphanum, Bool.or_eq_true, Bool.or_eq_true]
  exact h.imp .inl id

/-- A name starts with a letter or underscore and goes on with word characters. -/
theorem plain_iff {name : String} :
    Plain name ↔ ∃ c rest, name.toList = c :: rest ∧ isSafeStart c = true ∧
      ∀ d ∈ rest, isSafeContinue d = true := by
  constructor
  · rintro ⟨⟨c, hc, hstart⟩, hworded⟩
    obtain ⟨rest, hrest⟩ : ∃ rest, name.toList = c :: rest := List.head?_eq_some_iff.mp hc
    refine ⟨c, rest, hrest, hstart, fun d hd => ?_⟩
    simpa using hworded d (hrest ▸ List.mem_cons_of_mem c hd)
  · rintro ⟨c, rest, hname, hstart, hrest⟩
    refine ⟨⟨c, by rw [hname]; rfl, hstart⟩, fun d hd => .inl ?_⟩
    rw [hname] at hd
    rcases List.mem_cons.mp hd with rfl | hd
    · exact isSafeContinue_of_start hstart
    · exact hrest d hd

/-- Safe names are the plain ones, and those with one line feed behind. -/
theorem isSafe_iff {name : String} :
    isSafe name = true ↔ Plain name ∨ ∃ body, Plain body ∧ name = body ++ "\n" := by
  constructor
  · intro h
    unfold isSafe at h
    split at h
    · cases h
    · next c rest hname =>
      obtain ⟨hstart, hrest⟩ := Bool.and_eq_true_iff.mp h
      obtain ⟨body, hbody, rfl | rfl⟩ := isSafeRest_iff.mp hrest
      · exact .inl (plain_iff.mpr ⟨c, _, hname, hstart, hbody⟩)
      · have hplain : Plain (String.ofList (c :: body)) :=
          plain_iff.mpr ⟨c, body, String.toList_ofList, hstart, hbody⟩
        refine .inr ⟨String.ofList (c :: body), hplain, ?_⟩
        apply String.toList_injective
        rw [hname, String.toList_append, String.toList_ofList]
        rfl
  · rintro (h | ⟨body, h, rfl⟩)
    · obtain ⟨c, rest, hname, hstart, hrest⟩ := plain_iff.mp h
      rw [isSafe, hname]
      exact Bool.and_eq_true_iff.mpr ⟨hstart, isSafeRest_iff.mpr ⟨rest, hrest, .inl rfl⟩⟩
    · obtain ⟨c, rest, hname, hstart, hrest⟩ := plain_iff.mp h
      have hlist : (body ++ "\n").toList = c :: (rest ++ ['\n']) := by
        rw [String.toList_append, hname]
        rfl
      rw [isSafe, hlist]
      exact Bool.and_eq_true_iff.mpr ⟨hstart, isSafeRest_iff.mpr ⟨rest, hrest, .inr rfl⟩⟩

/-- A safe name has word characters, and perhaps line feeds. -/
theorem spelled_of_isSafe {name : String} (h : isSafe name = true) : Spelled ['\n'] name := by
  rcases isSafe_iff.mp h with hplain | ⟨body, hplain, rfl⟩
  · exact hplain.mono _
  · exact (hplain.mono _).append (by decide)

/-! ## Generated names -/

/-- A constant name is plain. -/
theorem plain_of_isSafe {name : String} (h : isSafe name = true) (hnone : '\n' ∉ name.toList) :
    Plain name :=
  (spelled_of_isSafe h).without fun _ hc => List.mem_singleton.mp hc ▸ hnone

/-- The type of an enumeration is spelled as its schema. -/
theorem spelled_enumTypeOf {schema : String} (h : Spelled others schema) (enumeration : String) :
    Spelled others (enumTypeOf schema enumeration) :=
  (h.append (.mono (by decide) _)).append (worded_shortHash enumeration)

/-- The name of an index is spelled as its table and its columns. -/
theorem spelled_indexName {table : String} {columns : List String} (htable : Spelled others table)
    (hcolumns : ∀ c ∈ columns, Spelled others c) (unique : Bool) :
    Spelled others (indexName table columns (indexLead unique)) := by
  have hlead : Spelled others (indexLead unique) := by
    cases unique with
    | true => exact (plain_of_isSafe (by decide) (by decide)).mono _
    | false => exact (plain_of_isSafe (by decide) (by decide)).mono _
  have hjoined : Worded others ("_".intercalate columns) :=
    worded_intercalate fun c hc => (hcolumns c hc).worded
  have hlow : Worded others "_" := .mono (by decide) _
  exact ((((hlead.append hlow).append htable.worded).append hlow).append hjoined).bounded

/-- The name of a unique index is spelled as its table and its column. -/
theorem spelled_uniqueIndex {table column : String} (htable : Spelled others table)
    (hcolumn : Spelled others column) : Spelled others (uniqueIndex table column) :=
  (((htable.append (.mono (by decide) _)).append hcolumn.worded).append (.mono (by decide) _)).bounded

/-- The name of a foreign key is spelled as its table and its column. -/
theorem spelled_foreignKeyConstraint {table column : String} (htable : Spelled others table)
    (hcolumn : Spelled others column) : Spelled others (foreignKeyConstraint table column) :=
  (((htable.append (.mono (by decide) _)).append hcolumn.worded).append (.mono (by decide) _)).bounded

/-- The name of a trigger is spelled as its table. -/
theorem spelled_triggerName {table : String} (h : Spelled others table) :
    Spelled others (triggerName table) := by
  have hlead : Spelled others "trg_" := (plain_of_isSafe (by decide) (by decide)).mono _
  exact ((hlead.append h.worded).append (.mono (by decide) _)).bounded

/-! ## Snake case -/

/-- Whether the run of capitals that a text begins with ends in no word: it has at most one capital, or no small letter
follows it. -/
def Unbroken (cs : List Char) : Prop :=
  2 ≤ (cs.takeWhile Char.isUpper).length → (cs.dropWhile Char.isUpper).head?.any Char.isLower = false

/-- The first separation passes a character, or a run of capitals with the small letter behind: the last capital begins
a word. -/
theorem splitCapitals_cases (fuel : ℕ) (c : Char) (cs : List Char) :
    (Unbroken (c :: cs) ∧ splitCapitals (fuel + 1) (c :: cs) = c :: splitCapitals fuel cs) ∨
    ∃ front last small rest, c :: cs = front ++ last :: small :: rest ∧ front ≠ [] ∧
      (∀ d ∈ front ++ [last], d.isUpper = true) ∧ small.isLower = true ∧
      splitCapitals (fuel + 1) (c :: cs) = front ++ '_' :: last :: small :: splitCapitals fuel rest := by
  have hrun : (c :: cs).takeWhile Char.isUpper ++ (c :: cs).dropWhile Char.isUpper = c :: cs :=
    List.takeWhile_append_dropWhile
  have hcapitals : ∀ d ∈ (c :: cs).takeWhile Char.isUpper, d.isUpper = true := List.all_eq_true.mp List.all_takeWhile
  rw [splitCapitals]
  unfold Unbroken
  split
  · next last before more small rest hreverse hrest =>
    have hfront : (c :: cs).takeWhile Char.isUpper = (before :: more).reverse ++ [last] := by
      rw [← List.reverse_reverse (List.takeWhile Char.isUpper (c :: cs)), hreverse, List.reverse_cons]
    split
    · next hsmall =>
      refine .inr ⟨(before :: more).reverse, last, small, rest, ?_, by simp, hfront ▸ hcapitals, hsmall, rfl⟩
      rw [← hrun, hfront, hrest, List.append_assoc]
      rfl
    · next hsmall => exact .inl ⟨fun _ => by simpa [hrest] using hsmall, rfl⟩
  · next hnone =>
    refine .inl ⟨fun htwo => ?_, rfl⟩
    rw [← List.length_reverse] at htwo
    cases hrest : (c :: cs).dropWhile Char.isUpper with
    | nil => rfl
    | cons small rest =>
      match hreverse : ((c :: cs).takeWhile Char.isUpper).reverse with
      | [] => simp [hreverse] at htwo
      | [last] => simp [hreverse] at htwo
      | last :: before :: more => exact (hnone last before more small rest hreverse hrest).elim

/-- The first separation adds underscores only. -/
theorem mem_splitCapitals {c : Char} (hc : c ≠ '_') (fuel : ℕ) (cs : List Char) :
    c ∈ splitCapitals fuel cs ↔ c ∈ cs := by
  induction fuel generalizing cs with
  | zero => rfl
  | succ fuel ih =>
    cases cs with
    | nil => rfl
    | cons d cs =>
      obtain ⟨-, hstep⟩ | ⟨front, last, small, rest, hsplit, -, -, -, hstep⟩ := splitCapitals_cases fuel d cs
      · rw [hstep, List.mem_cons, List.mem_cons, ih]
      · rw [hstep, hsplit]
        simp [ih, hc]

/-- The second separation adds underscores only. -/
theorem mem_splitHumps {c : Char} (hc : c ≠ '_') (cs : List Char) : c ∈ splitHumps cs ↔ c ∈ cs := by
  induction cs using splitHumps.induct with
  | case1 => rfl
  | case2 d => rfl
  | case3 d e rest hhump ih =>
    rw [splitHumps, if_pos hhump]
    simp [ih, hc]
  | case4 d e rest hhump ih =>
    rw [splitHumps, if_neg hhump]
    simp [ih]

/-- The lower case of ASCII characters is that of each. -/
theorem lowerAfter_of_ascii (before : List Char) {cs : List Char} (h : ∀ c ∈ cs, c.toNat < 128) :
    Text.lowerAfter before cs = cs.map Char.toLower := by
  induction cs generalizing before with
  | nil => rfl
  | cons c rest ih =>
    obtain ⟨hc, hrest⟩ := List.forall_mem_cons.mp h
    have hsigma : ¬ (c.toNat == 0x3A3) = true := by
      rw [beq_iff_eq]
      omega
    rw [Text.lowerAfter, if_neg hsigma, Text.lowerChar, if_pos hc, ih _ hrest]
    rfl

/-- Only a line feed has a line feed as its lower case. -/
theorem toLower_eq_lineFeed {c : Char} (h : c.toNat < 128) : c.toLower = '\n' ↔ c = '\n' := by
  have hall : ∀ n < 128, (Char.ofNat n).toLower = '\n' ↔ Char.ofNat n = '\n' := by decide
  have hc := hall c.toNat h
  rwa [Char.ofNat_toNat] at hc

/-- The characters that a generated name may have are ASCII. -/
theorem toNat_lt_of_worded {name : String} (h : Worded ['\n'] name) : ∀ c ∈ name.toList, c.toNat < 128 := by
  intro c hc
  rcases h c hc with hword | hother
  · have hranges : (decide (65 ≤ c.val ∧ c.val ≤ 90) || (97 ≤ c.val && c.val ≤ 122) ||
        (48 ≤ c.val && c.val ≤ 57) || c == '_') = true := hword
    simp only [Bool.or_eq_true, Bool.and_eq_true, decide_eq_true_eq, beq_iff_eq,
      UInt32.le_iff_toNat_le] at hranges
    change ((65 ≤ c.toNat ∧ c.toNat ≤ 90 ∨ 97 ≤ c.toNat ∧ c.toNat ≤ 122) ∨
      48 ≤ c.toNat ∧ c.toNat ≤ 57) ∨ c = '_' at hranges
    rcases hranges with hranges | rfl
    · omega
    · decide
  · rw [List.mem_singleton.mp hother]
    decide

/-- The characters of a name that words are separated in are ASCII where those of the name are. -/
theorem toNat_lt_of_mem_split {cs : List Char} (h : ∀ c ∈ cs, c.toNat < 128) (fuel : ℕ) :
    ∀ c ∈ splitHumps (splitCapitals fuel cs), c.toNat < 128 := by
  intro c hc
  by_cases hlow : c = '_'
  · rw [hlow]
    decide
  · exact h c ((mem_splitCapitals hlow _ _).mp ((mem_splitHumps hlow _).mp hc))

/-- The snake case of an ASCII name, character by character. -/
theorem toList_snakeCase {name : String} (h : ∀ c ∈ name.toList, c.toNat < 128) :
    (snakeCase name).toList =
      (splitHumps (splitCapitals name.toList.length name.toList)).map Char.toLower := by
  rw [snakeCase, String.toList_ofList, snakeChars, Text.lower, lowerAfter_of_ascii _ (toNat_lt_of_mem_split h _)]

/-- The snake case of a name has a line feed exactly when the name does. -/
theorem lineFeed_mem_snakeCase {name : String} (h : Worded ['\n'] name) :
    '\n' ∈ (snakeCase name).toList ↔ '\n' ∈ name.toList := by
  rw [toList_snakeCase (toNat_lt_of_worded h), List.mem_map]
  constructor
  · rintro ⟨c, hc, hlower⟩
    have hascii := toNat_lt_of_mem_split (toNat_lt_of_worded h) _ c hc
    obtain rfl := (toLower_eq_lineFeed hascii).mp hlower
    exact (mem_splitCapitals (by decide) _ _).mp ((mem_splitHumps (by decide) _).mp hc)
  · intro hc
    exact ⟨'\n', (mem_splitHumps (by decide) _).mpr ((mem_splitCapitals (by decide) _ _).mpr hc), rfl⟩

/-- A text with underscores put before some of its characters. -/
inductive Spaced : List Char → List Char → Prop where
  | nil : Spaced [] []
  | keep (c : Char) {cs ds : List Char} (h : Spaced cs ds) : Spaced (c :: cs) (c :: ds)
  | low (c : Char) {cs ds : List Char} (h : Spaced cs ds) : Spaced (c :: cs) ('_' :: c :: ds)

namespace Spaced

/-- Nothing need be put in. -/
theorem refl (cs : List Char) : Spaced cs cs := by
  induction cs with
  | nil => exact nil
  | cons c cs ih => exact keep c ih

/-- A part in front stays as it is. -/
theorem prepend (front : List Char) {cs ds : List Char} (h : Spaced cs ds) :
    Spaced (front ++ cs) (front ++ ds) := by
  induction front with
  | nil => exact h
  | cons c front ih => exact keep c ih

/-- The rest of a safe name stays one. -/
theorem isSafeRest {cs ds : List Char} (h : Spaced cs ds) (hsafe : isSafeRest cs = true) :
    isSafeRest ds = true := by
  induction h with
  | nil => rfl
  | keep c hrest ih =>
    rcases isSafeRest_cons.mp hsafe with ⟨rfl, rfl⟩ | ⟨hc, hcs⟩
    · cases hrest
      rfl
    · exact isSafeRest_cons.mpr (.inr ⟨hc, ih hcs⟩)
  | low c hrest ih =>
    refine isSafeRest_cons.mpr (.inr ⟨by decide, ?_⟩)
    rcases isSafeRest_cons.mp hsafe with ⟨rfl, rfl⟩ | ⟨hc, hcs⟩
    · cases hrest
      rfl
    · exact isSafeRest_cons.mpr (.inr ⟨hc, ih hcs⟩)

/-- A safe name stays one. -/
theorem isSafe {cs ds : List Char} (h : Spaced cs ds) (hsafe : isSafe (String.ofList cs) = true) :
    Naming.isSafe (String.ofList ds) = true := by
  cases h with
  | nil => exact hsafe
  | keep c hrest =>
    obtain ⟨hc, hcs⟩ := isSafe_ofList_cons.mp hsafe
    exact isSafe_ofList_cons.mpr ⟨hc, hrest.isSafeRest hcs⟩
  | low c hrest =>
    obtain ⟨hc, hcs⟩ := isSafe_ofList_cons.mp hsafe
    have hword : isSafeContinue c = true := isSafeContinue_of_start hc
    refine isSafe_ofList_cons.mpr ⟨by decide, isSafeRest_cons.mpr (.inr ⟨hword, ?_⟩)⟩
    exact hrest.isSafeRest hcs

end Spaced

/-- The first separation puts underscores before some characters. -/
theorem spaced_splitCapitals (fuel : ℕ) (cs : List Char) : Spaced cs (splitCapitals fuel cs) := by
  induction fuel generalizing cs with
  | zero => exact .refl cs
  | succ fuel ih =>
    cases cs with
    | nil => exact .nil
    | cons c cs =>
      obtain ⟨-, hstep⟩ | ⟨front, last, small, rest, hsplit, -, -, -, hstep⟩ := splitCapitals_cases fuel c cs
      · rw [hstep]
        exact .keep c (ih cs)
      · rw [hstep, hsplit]
        exact .prepend _ (.low last (.keep small (ih rest)))

/-- The second separation puts underscores before some characters. -/
theorem spaced_splitHumps (cs : List Char) : Spaced cs (splitHumps cs) := by
  induction cs using splitHumps.induct with
  | case1 => exact .nil
  | case2 c => exact .refl [c]
  | case3 c d rest hhump ih =>
    rw [splitHumps, if_pos hhump]
    exact .keep c (.low d ih)
  | case4 c d rest hhump ih =>
    rw [splitHumps, if_neg hhump]
    exact .keep c ih

/-- Word characters stay ones in lower case, and so do those that a name may start with. -/
theorem isSafe_toLower {c : Char} (h : c.toNat < 128) :
    (isSafeContinue c = true → isSafeContinue c.toLower = true) ∧
      (isSafeStart c = true → isSafeStart c.toLower = true) := by
  have hall : ∀ n < 128, (isSafeContinue (Char.ofNat n) = true →
      isSafeContinue (Char.ofNat n).toLower = true) ∧
      (isSafeStart (Char.ofNat n) = true → isSafeStart (Char.ofNat n).toLower = true) := by decide
  have hc := hall c.toNat h
  rwa [Char.ofNat_toNat] at hc

/-- The rest of a safe name stays one in lower case. -/
theorem isSafeRest_map_toLower {cs : List Char} (hascii : ∀ c ∈ cs, c.toNat < 128)
    (h : isSafeRest cs = true) : isSafeRest (cs.map Char.toLower) = true := by
  induction cs with
  | nil => rfl
  | cons c cs ih =>
    obtain ⟨hc, hcs⟩ := List.forall_mem_cons.mp hascii
    rcases isSafeRest_cons.mp h with ⟨rfl, rfl⟩ | ⟨hword, hrest⟩
    · rfl
    · exact isSafeRest_cons.mpr (.inr ⟨(isSafe_toLower hc).1 hword, ih hcs hrest⟩)

/-- The snake case of a safe name is safe. -/
theorem isSafe_snakeCase {name : String} (h : isSafe name = true) : isSafe (snakeCase name) = true := by
  have hname := toNat_lt_of_worded (spelled_of_isSafe h).worded
  have hascii := toNat_lt_of_mem_split hname name.toList.length
  have hsplit : isSafe (String.ofList (splitHumps (splitCapitals name.toList.length name.toList))) = true :=
    (spaced_splitHumps _).isSafe ((spaced_splitCapitals _ _).isSafe (by rwa [String.ofList_toList]))
  rw [← String.ofList_toList (s := snakeCase name), toList_snakeCase hname]
  generalize splitHumps (splitCapitals name.toList.length name.toList) = cs at hascii hsplit
  cases cs with
  | nil => exact hsplit
  | cons c cs =>
    obtain ⟨hc, hcs⟩ := List.forall_mem_cons.mp hascii
    obtain ⟨hstart, hrest⟩ := isSafe_ofList_cons.mp hsplit
    exact isSafe_ofList_cons.mpr ⟨(isSafe_toLower hc).2 hstart, isSafeRest_map_toLower hcs hrest⟩

/-! ## Sizes -/

/-- Each byte of an ASCII name is one character. -/
theorem size_of_ascii {name : String} (h : ∀ c ∈ name.toList, c.toNat < 128) :
    name.utf8ByteSize = name.toList.length := by
  have hsize : ∀ cs : List Char, (∀ c ∈ cs, c.toNat < 128) → String.utf8Len cs = cs.length := by
    intro cs hcs
    induction cs with
    | nil => rfl
    | cons c rest ih =>
      obtain ⟨hc, hrest⟩ := List.forall_mem_cons.mp hcs
      have hone : c.utf8Size = 1 := by
        rw [Char.utf8Size_eq_one_iff, UInt32.le_iff_toNat_le]
        exact Nat.le_of_lt_succ hc
      rw [String.utf8Len_cons, ih hrest, hone, List.length_cons]
  rw [← hsize _ h, ← String.utf8ByteSize_ofList, String.ofList_toList]

/-- Each byte of a generated name is one character. -/
theorem size_of_worded {name : String} (h : Worded ['\n'] name) :
    name.utf8ByteSize = name.toList.length :=
  size_of_ascii (toNat_lt_of_worded h)

/-- An ASCII name that may have been shortened is within the limit. -/
theorem size_bounded_le_of_ascii {name : String} (h : ∀ c ∈ (bounded name).toList, c.toNat < 128) :
    (bounded name).utf8ByteSize ≤ maxIdentifierBytes := by
  by_cases hlong : IsLong name
  · rw [size_of_ascii h, toList_bounded_of_long hlong, List.length_append,
      length_shortHash, List.length_append, List.length_take, List.length_singleton]
    have htake : min (maxIdentifierBytes - 9) name.toList.length ≤ maxIdentifierBytes - 9 :=
      Nat.min_le_left _ _
    unfold maxIdentifierBytes at *
    omega
  · rw [bounded_of_not_long hlong]
    exact Nat.not_lt.mp hlong

/-- A shortened name is within the limit. -/
theorem size_bounded_le {name : String} (h : Worded ['\n'] (bounded name)) :
    (bounded name).utf8ByteSize ≤ maxIdentifierBytes :=
  size_bounded_le_of_ascii (toNat_lt_of_worded h)

/-- The type of an enumeration is fourteen bytes longer than its schema. -/
theorem size_enumTypeOf (schema enumeration : String) :
    (enumTypeOf schema enumeration).utf8ByteSize = schema.utf8ByteSize + 14 := by
  have hhash : (shortHash enumeration).utf8ByteSize = 8 := by
    rw [size_of_worded (worded_shortHash enumeration), length_shortHash]
  have hmiddle : "_enum_".utf8ByteSize = 6 := rfl
  rw [enumTypeOf, String.utf8ByteSize_append, String.utf8ByteSize_append, hhash, hmiddle]

end SchemaReconcile.Naming
