import SchemaReconcile.Proofs.Naming.Spelling

/-!
# Snake case again

A name in snake case has no capital, and without capitals no words are separated: the snake case of such a name is the
name (`snakeCase_snakeCase`).  What snake case puts in is underscores, so the other characters of a name are those of
the name it was made from, in lower case (`letters_snakeCase`).
-/

namespace SchemaReconcile.Naming

variable {name : String} {cs ds : List Char} {c : Char}

/-! ## Characters in lower case -/

/-- A character in lower case is no capital, and a character that is no capital is in lower case.  Only the
underscore has the underscore as its lower case. -/
theorem toLower_of_ascii (h : c.toNat < 128) :
    c.toLower.toNat < 128 ∧ c.toLower.isUpper = false ∧ (c.isUpper = false → c.toLower = c) ∧
      (c.toLower = '_' ↔ c = '_') := by
  have hall : ∀ n < 128, (Char.ofNat n).toLower.toNat < 128 ∧ (Char.ofNat n).toLower.isUpper = false ∧
      ((Char.ofNat n).isUpper = false → (Char.ofNat n).toLower = Char.ofNat n) ∧
      ((Char.ofNat n).toLower = '_' ↔ Char.ofNat n = '_') := by decide
  have hc := hall c.toNat h
  rwa [Char.ofNat_toNat] at hc

/-! ## Names without capitals -/

/-- Without capitals there is nothing for the first separation. -/
theorem splitCapitals_of_small (fuel : ℕ) (h : ∀ c ∈ cs, c.isUpper = false) : splitCapitals fuel cs = cs := by
  induction fuel generalizing cs with
  | zero => rfl
  | succ fuel ih =>
    cases cs with
    | nil => rfl
    | cons c cs =>
      obtain ⟨hc, hcs⟩ := List.forall_mem_cons.mp h
      have hrun : List.takeWhile Char.isUpper (c :: cs) = [] := by
        rw [List.takeWhile_cons, hc]
        rfl
      rw [splitCapitals, hrun, List.reverse_nil]
      exact congrArg (c :: ·) (ih hcs)

/-- Without capitals there is nothing for the second separation. -/
theorem splitHumps_of_small (h : ∀ c ∈ cs, c.isUpper = false) : splitHumps cs = cs := by
  induction cs using splitHumps.induct with
  | case1 => rfl
  | case2 c => rfl
  | case3 c d rest hhump ih =>
    have hd : d.isUpper = false := h d (by simp)
    rw [hd, Bool.and_false] at hhump
    cases hhump
  | case4 c d rest hhump ih =>
    obtain ⟨-, hrest⟩ := List.forall_mem_cons.mp h
    rw [splitHumps, if_neg hhump, ih hrest]

/-- An ASCII name without capitals is its own snake case. -/
theorem snakeCase_of_small (hascii : ∀ c ∈ name.toList, c.toNat < 128)
    (h : ∀ c ∈ name.toList, c.isUpper = false) : snakeCase name = name := by
  have hlower : name.toList.map Char.toLower = name.toList := by
    calc
      name.toList.map Char.toLower = name.toList.map id :=
        List.map_congr_left fun c hc => (toLower_of_ascii (hascii c hc)).2.2.1 (h c hc)
      _ = name.toList := List.map_id _
  rw [← String.toList_inj, toList_snakeCase hascii, splitCapitals_of_small _ h, splitHumps_of_small h, hlower]

/-- The snake case of an ASCII name is ASCII, without capitals. -/
theorem small_snakeCase (hascii : ∀ c ∈ name.toList, c.toNat < 128) :
    ∀ c ∈ (snakeCase name).toList, c.toNat < 128 ∧ c.isUpper = false := by
  intro c hc
  rw [toList_snakeCase hascii] at hc
  obtain ⟨d, hd, rfl⟩ := List.mem_map.mp hc
  obtain ⟨hlow, hsmall, -⟩ := toLower_of_ascii (toNat_lt_of_mem_split hascii _ d hd)
  exact ⟨hlow, hsmall⟩

/-- The snake case of an ASCII name is its own snake case. -/
theorem snakeCase_snakeCase (hascii : ∀ c ∈ name.toList, c.toNat < 128) :
    snakeCase (snakeCase name) = snakeCase name :=
  snakeCase_of_small (fun c hc => (small_snakeCase hascii c hc).1) fun c hc => (small_snakeCase hascii c hc).2

/-! ## Letters -/

/-- The characters of a text other than underscores. -/
def letters (cs : List Char) : List Char := cs.filter (· != '_')

/-- The letters of two texts are those of the texts behind each other. -/
theorem letters_append (cs ds : List Char) : letters (cs ++ ds) = letters cs ++ letters ds := List.filter_append ..

/-- Underscores that are put in make no difference to the letters. -/
theorem Spaced.letters_eq (h : Spaced cs ds) : letters ds = letters cs := by
  unfold letters
  induction h with
  | nil => rfl
  | keep c _ ih => rw [List.filter_cons, List.filter_cons, ih]
  | low c _ ih => rw [List.filter_cons_of_neg (by decide), List.filter_cons, List.filter_cons, ih]

/-- Lower case goes letter by letter. -/
theorem letters_map_toLower (hascii : ∀ c ∈ cs, c.toNat < 128) :
    letters (cs.map Char.toLower) = (letters cs).map Char.toLower := by
  unfold letters
  rw [List.filter_map]
  refine congrArg (List.map Char.toLower) (List.filter_congr fun c hc => ?_)
  obtain ⟨-, -, -, hlow⟩ := toLower_of_ascii (hascii c hc)
  rw [Function.comp_apply, Bool.eq_iff_iff, bne_iff_ne, bne_iff_ne]
  exact hlow.not

/-- The letters of a name in snake case are those of the name, in lower case. -/
theorem letters_snakeCase (hascii : ∀ c ∈ name.toList, c.toNat < 128) :
    letters (snakeCase name).toList = (letters name.toList).map Char.toLower := by
  have hspaced := (spaced_splitHumps (splitCapitals name.toList.length name.toList)).letters_eq
  rw [toList_snakeCase hascii, letters_map_toLower (toNat_lt_of_mem_split hascii _), hspaced,
    (spaced_splitCapitals _ _).letters_eq]

end SchemaReconcile.Naming
