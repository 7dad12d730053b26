import SchemaReconcile.Proofs.Naming.SnakeCase

/-!
# Snake case in one pass

Words are separated in two passes, and the first one consumes a whole run of capitals at a time.  Yet where the
underscores stand is decided by neighbours alone: a capital starts a word when it follows a small letter or a digit, or
when it follows a capital and a small letter comes next (`startsWord`).  A single pass with that rule (`marked`) gives
the same text.

A run of capitals is cut before its last one, if at all.  So the first pass, at whatever place it stands, marks the
capitals that end a run (`endsRun`), as long as no run that was passed by goes on from there (`Unbroken`).  The second
pass cannot be disturbed by the underscores of the first: they stand before capitals, and in front of them there are
capitals too.
-/

namespace SchemaReconcile.Naming

variable {name : String} {cs ds : List Char} {before : Option Char} {c : Char} {fuel : ℕ}

/-! ## Marks -/

/-- A text with an underscore before each character that a rule picks by the character before it and by whether a
small letter follows. -/
def marked (rule : Option Char → Char → Bool → Bool) (before : Option Char) : List Char → List Char
  | [] => []
  | c :: rest =>
    if rule before c (rest.head?.any Char.isLower) then '_' :: c :: marked rule (some c) rest
    else c :: marked rule (some c) rest

/-- A capital after a capital starts a word when a small letter follows. -/
def endsRun (before : Option Char) (c : Char) (small : Bool) : Bool :=
  c.isUpper && before.any Char.isUpper && small

/-- A capital starts a word after a small letter or a digit, and after a capital when a small letter follows. -/
def startsWord (before : Option Char) (c : Char) (small : Bool) : Bool :=
  c.isUpper && (before.any (fun b => b.isLower || b.isDigit) || before.any Char.isUpper && small)

/-- A text is marked part by part, where the second part does not begin with a small letter. -/
theorem marked_append (rule : Option Char → Char → Bool → Bool) (before : Option Char)
    (h : ds.head?.any Char.isLower = false) :
    marked rule before (cs ++ ds) = marked rule before cs ++ marked rule (cs.getLast?.or before) ds := by
  induction cs generalizing before with
  | nil => rfl
  | cons c rest ih =>
    have hnext : (rest ++ ds).head?.any Char.isLower = rest.head?.any Char.isLower := by
      cases rest with
      | nil => simpa using h
      | cons d rest => rfl
    have hlast : (c :: rest).getLast?.or before = rest.getLast?.or (some c) := by
      rw [List.getLast?_cons]
      cases rest.getLast? <;> rfl
    rw [List.cons_append, marked, marked, hnext, ih, hlast]
    split <;> rfl

/-- A capital is neither a small letter nor a digit. -/
theorem of_isUpper (h : c.isUpper = true) : c.isLower = false ∧ c.isDigit = false := by
  have hrange : decide (65 ≤ c.val ∧ c.val ≤ 90) = true := h
  change (decide (97 ≤ c.val) && decide (c.val ≤ 122)) = false ∧ (decide (48 ≤ c.val) && decide (c.val ≤ 57)) = false
  simp only [Bool.and_eq_false_iff, decide_eq_true_eq, decide_eq_false_iff_not, UInt32.le_iff_toNat_le] at hrange ⊢
  change 65 ≤ c.toNat ∧ c.toNat ≤ 90 at hrange
  change (¬97 ≤ c.toNat ∨ ¬c.toNat ≤ 122) ∧ (¬48 ≤ c.toNat ∨ ¬c.toNat ≤ 57)
  omega

/-- Among capitals alone no run ends. -/
theorem marked_endsRun_capitals (h : ∀ c ∈ cs, c.isUpper = true) (before : Option Char) :
    marked endsRun before cs = cs := by
  induction cs generalizing before with
  | nil => rfl
  | cons c rest ih =>
    obtain ⟨-, hrest⟩ := List.forall_mem_cons.mp h
    have hnext : rest.head?.any Char.isLower = false := by
      cases rest with
      | nil => rfl
      | cons d rest => exact (of_isUpper (hrest d List.mem_cons_self)).1
    rw [marked, hnext, endsRun, Bool.and_false, ih hrest]
    rfl

/-- A small letter is no capital. -/
theorem not_isUpper_of_isLower (h : c.isLower = true) : c.isUpper = false := by
  rw [Bool.eq_false_iff]
  intro hupper
  rw [(of_isUpper hupper).1] at h
  cases h

/-- A text that begins with no capital has no run there. -/
theorem unbroken_of_not_isUpper (h : c.isUpper = false) (cs : List Char) : Unbroken (c :: cs) := by
  intro htwo
  simp [h] at htwo

/-- No run ends at a character that goes on with a run that was passed by. -/
theorem endsRun_of_unbroken (h : ∀ b ∈ before, Unbroken (b :: c :: cs)) :
    endsRun before c (cs.head?.any Char.isLower) = false := by
  rw [Bool.eq_false_iff]
  intro hends
  simp only [endsRun, Bool.and_eq_true, Option.any_eq_true] at hends
  obtain ⟨⟨hc, b, hbefore, hb⟩, d, hd, hsmall⟩ := hends
  obtain ⟨rest, rfl⟩ := List.head?_eq_some_iff.mp hd
  have hd : d.isUpper = false := not_isUpper_of_isLower hsmall
  have hnone := h b hbefore (by simp [hb, hc, hd])
  simp [hb, hc, hd, hsmall] at hnone

/-- The first separation marks the ends of runs, also in the middle of a text whose runs it has passed by. -/
theorem splitCapitals_eq_marked (hfuel : cs.length ≤ fuel) (h : ∀ b ∈ before, Unbroken (b :: cs)) :
    splitCapitals fuel cs = marked endsRun before cs := by
  -- along the passes of the separation; the character before decides nothing unless its own run goes on
  induction fuel generalizing before cs with
  | zero =>
    obtain rfl := List.eq_nil_of_length_eq_zero (Nat.le_zero.mp hfuel)
    rfl
  | succ fuel ih =>
    cases cs with
    | nil => rfl
    | cons c cs =>
      obtain ⟨hunbroken, hstep⟩ | ⟨front, last, small, rest, hsplit, hfront, hcapitals, hsmall, hstep⟩ :=
        splitCapitals_cases fuel c cs
      · -- one character is passed
        have hnext : ∀ b ∈ some c, Unbroken (b :: cs) := fun b hb => Option.mem_some_iff.mp hb ▸ hunbroken
        rw [hstep, marked, endsRun_of_unbroken h, ih (Nat.le_of_succ_le_succ hfuel) hnext]
        rfl
      · -- a run is consumed: of its capitals, the last one alone is marked
        obtain ⟨hfrontCapitals, hlast⟩ := List.forall_mem_append.mp hcapitals
        rw [List.forall_mem_singleton] at hlast
        have hrest : rest.length ≤ fuel := by
          rw [hsplit, List.length_append] at hfuel
          simp only [List.length_cons] at hfuel
          have := List.length_pos_of_ne_nil hfront
          omega
        have hsmallNext : ∀ b ∈ some small, Unbroken (b :: rest) := fun b hb =>
          Option.mem_some_iff.mp hb ▸ unbroken_of_not_isUpper (not_isUpper_of_isLower hsmall) rest
        obtain ⟨d, hd⟩ : ∃ d, front.getLast? = some d := by
          rw [← Option.isSome_iff_exists, List.getLast?_isSome]
          exact hfront
        have hdCapital : d.isUpper = true := hfrontCapitals d (List.mem_of_getLast? hd)
        have hmark : endsRun (some d) last ((small :: rest).head?.any Char.isLower) = true := by
          simp [endsRun, hdCapital, hlast, hsmall]
        have hplain : endsRun (some last) small (rest.head?.any Char.isLower) = false := by
          simp [endsRun, not_isUpper_of_isLower hsmall]
        rw [hstep, hsplit, marked_append endsRun before (by simp [(of_isUpper hlast).1]),
          marked_endsRun_capitals hfrontCapitals, hd, Option.some_or, marked, hmark, marked, hplain,
          ih hrest hsmallNext]
        rfl

/-- A capital in front of a text makes no difference to the second separation of the text. -/
theorem splitHumps_cons_of_isUpper (h : c.isUpper = true) (cs : List Char) :
    splitHumps (c :: cs) = c :: splitHumps cs := by
  obtain ⟨hlower, hdigit⟩ := of_isUpper h
  cases cs with
  | nil => rfl
  | cons d rest => rw [splitHumps, hlower, hdigit]; rfl

/-- A word starts where a run of capitals ends, and where a capital follows a small letter or a digit. -/
theorem startsWord_some (c d : Char) (small : Bool) :
    startsWord (some c) d small = (endsRun (some c) d small || (c.isLower || c.isDigit) && d.isUpper) := by
  rw [startsWord, endsRun, Option.any_some, Option.any_some]
  cases d.isUpper <;> cases c.isUpper <;> cases small <;> simp

/-- After the first separation, the second one marks the other words. -/
theorem splitHumps_marked (c : Char) (cs : List Char) :
    splitHumps (c :: marked endsRun (some c) cs) = c :: marked startsWord (some c) cs := by
  induction cs generalizing c with
  | nil => rfl
  | cons d rest ih =>
    rw [marked, marked, startsWord_some]
    cases hends : endsRun (some c) d (rest.head?.any Char.isLower) with
    | true =>
      -- the underscore stands between two capitals, and neither makes a hump with it
      obtain ⟨⟨-, hc⟩, -⟩ : (d.isUpper = true ∧ c.isUpper = true) ∧ _ := by simpa [endsRun] using hends
      have hlow : splitHumps ('_' :: d :: marked endsRun (some d) rest) =
          '_' :: splitHumps (d :: marked endsRun (some d) rest) := rfl
      rw [if_pos rfl, splitHumps_cons_of_isUpper hc, hlow, ih, Bool.true_or, if_pos rfl]
    | false =>
      rw [if_neg Bool.false_ne_true, Bool.false_or, splitHumps]
      split
      · next hhump =>
        have hd : d.isUpper = true := (Bool.and_eq_true_iff.mp hhump).2
        rw [← splitHumps_cons_of_isUpper hd, ih]
      · rw [ih]

/-- Both separations together put an underscore before each character that starts a word. -/
theorem splitHumps_splitCapitals (cs : List Char) :
    splitHumps (splitCapitals cs.length cs) = marked startsWord none cs := by
  have hnone : ∀ b ∈ (none : Option Char), Unbroken (b :: cs) := by simp
  rw [splitCapitals_eq_marked le_rfl hnone]
  cases cs with
  | nil => rfl
  | cons c cs =>
    have hfirst : endsRun none c (cs.head?.any Char.isLower) = false := by simp [endsRun]
    have hfirst' : startsWord none c (cs.head?.any Char.isLower) = false := by simp [startsWord]
    rw [marked, marked, hfirst, hfirst', if_neg Bool.false_ne_true, if_neg Bool.false_ne_true, splitHumps_marked]

/-- Snake case is the lower case of a name with an underscore before each word but the first. -/
theorem snakeCase_eq (name : String) :
    snakeCase name = String.ofList (Text.lower (marked startsWord none name.toList)) := by
  rw [snakeCase, snakeChars, splitHumps_splitCapitals]

/-- The characters that are put in and kept are ASCII where those of the text are. -/
theorem toNat_lt_of_mem_marked (h : ∀ c ∈ cs, c.toNat < 128) : ∀ c ∈ marked startsWord none cs, c.toNat < 128 := by
  rw [← splitHumps_splitCapitals]
  exact toNat_lt_of_mem_split h _

/-- The attribute of a foreign key is one more word of a name that ends in a letter or a digit. -/
theorem snakeCase_append_id (hword : ∀ c ∈ name.toList, isSafeContinue c = true)
    (hlast : ∃ c ∈ name.toList.getLast?, c ≠ '_') : snakeCase (name ++ "Id") = snakeCase name ++ "_id" := by
  obtain ⟨last, hlast, hlow⟩ := hlast
  have hstarts : startsWord (some last) 'I' true = true := by
    have hclass : (last.isUpper || last.isLower || last.isDigit || last == '_') = true :=
      hword last (List.mem_of_getLast? hlast)
    simp only [Bool.or_eq_true, beq_iff_eq] at hclass
    rcases hclass with ((hupper | hlower) | hdigit) | rfl
    · simp [startsWord, hupper]
    · simp [startsWord, hlower]
    · simp [startsWord, hdigit]
    · exact absurd rfl hlow
  have hmarked : marked startsWord none (name ++ "Id").toList =
      marked startsWord none name.toList ++ ['_', 'I', 'd'] := by
    have hid : marked startsWord (some last) ['I', 'd'] = ['_', 'I', 'd'] := by
      rw [marked, show ['d'].head?.any Char.isLower = true by decide, hstarts]
      rfl
    rw [String.toList_append, marked_append startsWord none (by decide), Option.mem_def.mp hlast, Option.some_or]
    exact congrArg _ hid
  have hascii := toNat_lt_of_mem_marked (toNat_lt_of_worded fun c hc => .inl (hword c hc))
  have hid : ∀ c ∈ ['_', 'I', 'd'], c.toNat < 128 := by simp
  calc
    snakeCase (name ++ "Id") =
        String.ofList ((marked startsWord none name.toList ++ ['_', 'I', 'd']).map Char.toLower) := by
      rw [snakeCase_eq, hmarked, Text.lower, lowerAfter_of_ascii _ (List.forall_mem_append.mpr ⟨hascii, hid⟩)]
    _ = snakeCase name ++ "_id" := by
      rw [snakeCase_eq, Text.lower, lowerAfter_of_ascii _ hascii, List.map_append, String.ofList_append]
      rfl

/-- The snake case of an ASCII name is the lower case of the name with its words marked in one pass.  So it is its own
snake case and has no capital, its letters are those of the name in lower case, and the attribute of a foreign key adds
one word to it. -/
theorem snakeCase_onePass (hascii : ∀ c ∈ name.toList, c.toNat < 128) :
    snakeCase name = String.ofList (Text.lower (marked startsWord none name.toList)) ∧
    snakeCase (snakeCase name) = snakeCase name ∧
    (∀ c ∈ (snakeCase name).toList, c.isUpper = false) ∧
    letters (snakeCase name).toList = letters (Text.lower name.toList) ∧
    ((∀ c ∈ name.toList, isSafeContinue c = true) → (∃ c ∈ name.toList.getLast?, c ≠ '_') →
      snakeCase (name ++ "Id") = snakeCase name ++ "_id") := by
  refine ⟨snakeCase_eq name, snakeCase_snakeCase hascii, fun c hc => (small_snakeCase hascii c hc).2, ?_,
    snakeCase_append_id⟩
  rw [letters_snakeCase hascii, Text.lower, lowerAfter_of_ascii _ hascii, letters_map_toLower hascii]

/-- A run of capitals, a digit in front of a capital and an underscore of the name's own. -/
theorem snakeCase_onePass_run :
    (∀ c ∈ "parseHTTPResponse2GO_v3XMLs".toList, c.toNat < 128) ∧
    snakeCase "parseHTTPResponse2GO_v3XMLs" = "parse_http_response2_go_v3_xm_ls" ∧
    snakeCase ("parseHTTPResponse2GO_v3XMLs" ++ "Id") = "parse_http_response2_go_v3_xm_ls_id" := by
  have hword : ∀ c ∈ "parseHTTPResponse2GO_v3XMLs".toList, isSafeContinue c = true :=
    List.all_eq_true.mp (by decide +kernel)
  have hascii : ∀ c ∈ "parseHTTPResponse2GO_v3XMLs".toList, c.toNat < 128 :=
    toNat_lt_of_worded fun c hc => .inl (hword c hc)
  obtain ⟨hone, -, -, -, hid⟩ := snakeCase_onePass hascii
  have hsnake : snakeCase "parseHTTPResponse2GO_v3XMLs" = "parse_http_response2_go_v3_xm_ls" := by
    rw [hone]
    decide +kernel
  refine ⟨hascii, hsnake, ?_⟩
  rw [hid hword ⟨'s', by decide, by decide⟩, hsnake]
  rfl

end SchemaReconcile.Naming
