import SchemaReconcile.Proofs.Sdl.Tokens

/-!
# Type expressions in tokens

Tokens spell a type expression as the grammar has it (`Spells`): a name, a type between brackets, or a type with
one mark behind it.  The reader of type expressions takes exactly such tokens, in front of anything but a further
mark (`spells_of_typeExpr`, `typeExpr_append`), so a whole text is read as a type expression exactly when it
writes it, whatever stands between its tokens (`readTypeExpr_eq_ok_iff`).

The reader looks for a mark behind each name and each closing bracket, but not behind a mark.  An induction over
the grammar therefore has to say what is still looked for (`TypeExpr.marked`), and not only what is read.

The tokens of a text spell proper expressions only, with a name inside and no mark behind a mark (`Spells.proper`),
and each of these has a text of its own that writes it (`writes_text`).
-/

namespace SchemaReconcile.Sdl

open Reading

/-! ## Type expressions -/

/-- Tokens spell a type expression: a name, a type between brackets, or a type with one mark behind it. -/
inductive Spells : TypeExpr → List Token → Prop where
  | named {t : Token} (ht : t.kind = .name) : Spells (.named t.text) [t]
  | list {item : TypeExpr} {opening closing : Token} {ts : List Token}
      (hopening : opening.kind = .punctuator '[') (hitem : Spells item ts)
      (hclosing : closing.kind = .punctuator ']') : Spells (.list item) (opening :: (ts ++ [closing]))
  | nonNull {inner : TypeExpr} {mark : Token} {ts : List Token} (hinner : Spells inner ts)
      (honce : ∀ e, inner ≠ .nonNull e) (hmark : mark.kind = .punctuator '!') :
      Spells (.nonNull inner) (ts ++ [mark])

/-- Tokens that spell a type expression go on. -/
theorem Spells.goesOn {e : TypeExpr} {ts : List Token} (h : Spells e ts) : ∀ t ∈ ts, t.kind.GoesOn := by
  induction h with
  | named ht => exact List.forall_mem_singleton.mpr (ht ▸ TokenKind.goesOn_name)
  | list hopening _ hclosing ih =>
    refine List.forall_mem_cons.mpr ⟨hopening ▸ TokenKind.goesOn_punctuator _, ?_⟩
    exact List.forall_mem_append.mpr
      ⟨ih, List.forall_mem_singleton.mpr (hclosing ▸ TokenKind.goesOn_punctuator _)⟩
  | nonNull _ _ hmark ih =>
    exact List.forall_mem_append.mpr
      ⟨ih, List.forall_mem_singleton.mpr (hmark ▸ TokenKind.goesOn_punctuator _)⟩

namespace TypeExpr

/-- What is read behind the tokens of a type: a mark if it is there, unless one has been read. -/
def marked : TypeExpr → Reading TypeExpr
  | nonNull inner => return nonNull inner
  | e => do if ← skipMark '!' then return nonNull e else return e

/-- No further mark belongs to a type expression in front of tokens. -/
def Complete (e : TypeExpr) (rest : List Token) : Prop :=
  (∃ inner, e = nonNull inner) ∨ ∀ t ∈ rest.head?, t.kind ≠ .punctuator '!'

variable {e e' : TypeExpr} {ts rest : List Token}

/-- A type without a mark gets one if it is there. -/
theorem marked_eq_ok_iff (hts : Ended ts) (hbare : ∀ inner, e ≠ nonNull inner) :
    e.marked ts = .ok (e', rest) ↔
      (e' = nonNull e ∧ ∃ t, ts = t :: rest ∧ t.kind = .punctuator '!' ∧ Stands rest) ∨
        (e' = e ∧ rest = ts ∧ e.Complete ts) := by
  have hmarked : e.marked = do if ← skipMark '!' then return nonNull e else return e := by
    cases e with
    | nonNull inner => exact absurd rfl (hbare inner)
    | _ => rfl
  have hcomplete : e.Complete ts ↔ ∀ t ∈ ts.head?, t.kind ≠ .punctuator '!' :=
    or_iff_right fun ⟨inner, he⟩ => hbare inner he
  rw [hmarked, hcomplete]
  constructor
  · intro h
    obtain ⟨⟨found, left⟩, hskip, hdone⟩ := bind_eq_ok.mp h
    rcases (skipMark_eq_ok_iff hts).mp hskip with ⟨rfl, ht⟩ | ⟨rfl, rfl, hnone⟩
    · obtain ⟨rfl, rfl⟩ := Prod.mk.inj (Except.ok.inj hdone)
      exact .inl ⟨rfl, ht⟩
    · obtain ⟨rfl, rfl⟩ := Prod.mk.inj (Except.ok.inj hdone)
      exact .inr ⟨rfl, rfl, hnone⟩
  · rintro (⟨rfl, ht⟩ | ⟨rfl, rfl, hnone⟩)
    · exact bind_eq_ok.mpr ⟨(true, rest), (skipMark_eq_ok_iff hts).mpr (.inl ⟨rfl, ht⟩), rfl⟩
    · exact bind_eq_ok.mpr ⟨(false, rest), (skipMark_eq_ok_iff hts).mpr (.inr ⟨rfl, rfl, hnone⟩), rfl⟩

/-- Nothing is read behind a type expression that no further mark belongs to. -/
theorem marked_of_complete (hts : Ended ts) (h : e.Complete ts) : e.marked ts = .ok (e, ts) := by
  by_cases hbare : ∃ inner, e = nonNull inner
  · obtain ⟨inner, rfl⟩ := hbare
    rfl
  · exact (marked_eq_ok_iff hts (not_exists.mp hbare)).mpr (.inr ⟨rfl, rfl, h⟩)

end TypeExpr

/-- A type is read as a name or as a type between brackets, with what is read behind it. -/
theorem typeExpr_succ (fuel : ℕ) : typeExpr (fuel + 1) = (do
    if ← skipMark '[' then
      let item ← typeExpr fuel
      expectMark ']'
      (TypeExpr.list item).marked
    else
      let s ← name
      (TypeExpr.named s).marked) := by
  simp [typeExpr, TypeExpr.marked]

variable {e body : TypeExpr} {ts used left rest : List Token} {fuel : ℕ}

/-- What is read behind the tokens of a type without a mark is its mark. -/
theorem spells_of_marked (hbody : Spells body used) (hbare : ∀ inner, body ≠ .nonNull inner)
    (hleft : Ended left) (hstands : Stands left) (h : body.marked left = .ok (e, rest)) :
    ∃ more, left = more ++ rest ∧ Spells e (used ++ more) ∧ Stands rest ∧ e.Complete rest := by
  rcases (TypeExpr.marked_eq_ok_iff hleft hbare).mp h with ⟨rfl, mark, rfl, hmark, hrest⟩ | ⟨rfl, rfl, hcomplete⟩
  · exact ⟨[mark], rfl, .nonNull hbody hbare hmark, hrest, .inl ⟨body, rfl⟩⟩
  · exact ⟨[], rfl, by rwa [List.append_nil], hstands, hcomplete⟩

/-- What is read as a type expression is spelled by the tokens that are consumed, and no further mark belongs to
it. -/
theorem spells_of_typeExpr (hts : Ended ts) (h : typeExpr fuel ts = .ok (e, rest)) :
    ∃ used, ts = used ++ rest ∧ Spells e used ∧ Stands rest ∧ e.Complete rest := by
  induction fuel generalizing e ts rest with
  | zero =>
    obtain ⟨t, more, rfl⟩ := hts.exists_cons
    cases h
  | succ fuel ih =>
    rw [typeExpr_succ] at h
    obtain ⟨⟨found, left⟩, hskip, hread⟩ := bind_eq_ok.mp h
    rcases (skipMark_eq_ok_iff hts).mp hskip with ⟨rfl, opening, rfl, hopening, -⟩ | ⟨rfl, rfl, -⟩
    · have hleft : Ended left := (Ended.cons_iff (hopening ▸ TokenKind.goesOn_punctuator _)).mp hts
      obtain ⟨⟨item, behind⟩, hinside, hclose⟩ := bind_eq_ok.mp hread
      obtain ⟨inside, rfl, hitem, -, -⟩ := ih hleft hinside
      have hbehind : Ended behind := (Ended.append_iff hitem.goesOn).mp hleft
      obtain ⟨⟨⟨⟩, left⟩, hexpect, hmark⟩ := bind_eq_ok.mp hclose
      obtain ⟨closing, rfl, hclosing, hstands⟩ := (expectMark_eq_ok_iff hbehind).mp hexpect
      have hend : Ended left := (Ended.cons_iff (hclosing ▸ TokenKind.goesOn_punctuator _)).mp hbehind
      obtain ⟨more, rfl, hspells, hrest⟩ :=
        spells_of_marked (.list hopening hitem hclosing) nofun hend hstands hmark
      exact ⟨_, by simp, hspells, hrest⟩
    · obtain ⟨⟨s, left⟩, hname, hmark⟩ := bind_eq_ok.mp hread
      obtain ⟨t, rfl, ht, rfl, hstands⟩ := (name_eq_ok_iff hts).mp hname
      have hleft : Ended left := (Ended.cons_iff (ht ▸ TokenKind.goesOn_name)).mp hts
      obtain ⟨more, rfl, hspells, hrest⟩ := spells_of_marked (.named ht) nofun hleft hstands hmark
      exact ⟨_, rfl, hspells, hrest⟩

/-- Tokens that spell a type expression are read in front of any others, up to a mark behind them. -/
theorem typeExpr_append (h : Spells e used) (hrest : Ended rest) (hstands : Stands rest)
    (hfuel : used.length ≤ fuel) : typeExpr fuel (used ++ rest) = e.marked rest := by
  induction h generalizing rest fuel with
  | @named t ht =>
    obtain ⟨fuel, rfl⟩ : ∃ n, fuel = n + 1 := ⟨fuel - 1, by simp at hfuel; omega⟩
    have hts : Ended (t :: rest) := .cons (ht ▸ TokenKind.goesOn_name) hrest
    have hskip : skipMark '[' (t :: rest) = .ok (false, t :: rest) :=
      (skipMark_eq_ok_iff hts).mpr (.inr ⟨rfl, rfl, fun u hu => by rw [← Option.some.inj hu, ht]; nofun⟩)
    have hname : name (t :: rest) = .ok (t.text, rest) := (name_eq_ok_iff hts).mpr ⟨t, rfl, ht, rfl, hstands⟩
    rw [typeExpr_succ, List.singleton_append, bind_of_eq_ok hskip]
    exact bind_of_eq_ok hname _
  | @list item opening closing inside hopening hitem hclosing ih =>
    obtain ⟨fuel, rfl⟩ : ∃ n, fuel = n + 1 := ⟨fuel - 1, by simp at hfuel; omega⟩
    have hbehind : Ended (closing :: rest) := .cons (hclosing ▸ TokenKind.goesOn_punctuator _) hrest
    have hclosed : Stands (closing :: rest) := fun u hu => by rw [← Option.some.inj hu, hclosing]; nofun
    have hleft : Ended (inside ++ closing :: rest) := (Ended.append_iff hitem.goesOn).mpr hbehind
    have hskip : skipMark '[' (opening :: (inside ++ closing :: rest)) =
        .ok (true, inside ++ closing :: rest) :=
      (skipMark_eq_ok_iff (.cons (hopening ▸ TokenKind.goesOn_punctuator _) hleft)).mpr
        (.inl ⟨rfl, opening, rfl, hopening, stands_append hitem.goesOn hclosed⟩)
    -- a bracket is no mark, so the item ends in front of it
    have hread : typeExpr fuel (inside ++ closing :: rest) = .ok (item, closing :: rest) := by
      rw [ih hbehind hclosed (by simp at hfuel; omega)]
      refine TypeExpr.marked_of_complete hbehind (.inr fun u hu => ?_)
      rw [← Option.some.inj hu, hclosing]
      nofun
    have hexpect : expectMark ']' (closing :: rest) = .ok ((), rest) :=
      (expectMark_eq_ok_iff hbehind).mpr ⟨closing, rfl, hclosing, hstands⟩
    rw [typeExpr_succ, List.cons_append, List.append_assoc, List.singleton_append, bind_of_eq_ok hskip,
      if_pos rfl, bind_of_eq_ok hread, bind_of_eq_ok hexpect]
  | @nonNull inner mark ts hinner honce hmark ih =>
    have hleft : Ended (mark :: rest) := .cons (hmark ▸ TokenKind.goesOn_punctuator _) hrest
    have hstands' : Stands (mark :: rest) := fun u hu => by rw [← Option.some.inj hu, hmark]; nofun
    rw [List.append_assoc, List.singleton_append, ih hleft hstands' (by simp at hfuel; omega)]
    exact (TypeExpr.marked_eq_ok_iff hleft honce).mpr (.inl ⟨rfl, mark, rfl, hmark, hstands⟩)

/-! ## Whole texts -/

/-- A text writes a type expression: its tokens spell it, up to the end of the text. -/
def Writes (text : String) (e : TypeExpr) : Prop :=
  ∃ used last, tokens text = used ++ [last] ∧ last.kind = .finish ∧ Spells e used

/-- A text is read as a type expression exactly when it writes it. -/
theorem readTypeExpr_eq_ok_iff {text : String} : readTypeExpr text = .ok e ↔ Writes text e := by
  have hended := ended_tokens text
  rw [readTypeExpr, run_eq_ok_iff]
  constructor
  · rintro ⟨-, left, h⟩
    obtain ⟨⟨e', rest⟩, hread, hend⟩ := bind_eq_ok.mp h
    obtain ⟨used, htokens, hspells, -, -⟩ := spells_of_typeExpr hended hread
    rw [htokens, Ended.append_iff hspells.goesOn] at hended
    obtain ⟨⟨⟨⟩, left'⟩, hdiscard, hdone⟩ := bind_eq_ok.mp hend
    obtain ⟨last, hexpect⟩ := discard_eq_ok_iff.mp hdiscard
    obtain ⟨rfl, hlast, -⟩ := (expect_finish_eq_ok_iff hended).mp hexpect
    obtain rfl := (Prod.mk.inj (Except.ok.inj hdone)).1
    exact ⟨used, last, htokens, hlast, hspells⟩
  · rintro ⟨used, last, htokens, hlast, hspells⟩
    rw [htokens, Ended.append_iff hspells.goesOn] at hended
    have hstands : Stands [last] := fun t ht => by rw [← Option.some.inj ht, hlast]; nofun
    have hcomplete : e.Complete [last] := .inr fun t ht => by rw [← Option.some.inj ht, hlast]; nofun
    rw [htokens]
    refine ⟨stands_append hspells.goesOn hstands, [last], ?_⟩
    rw [bind_of_eq_ok ((typeExpr_append hspells hended hstands (by simp; omega)).trans
      (TypeExpr.marked_of_complete hended hcomplete))]
    have hdiscard : (discard (expect .finish) : Reading Unit) [last] = .ok ((), [last]) :=
      discard_eq_ok_iff.mpr ⟨last, (expect_finish_eq_ok_iff hended).mpr ⟨rfl, hlast, rfl⟩⟩
    exact bind_of_eq_ok hdiscard _

/-! ## Proper type expressions -/

/-- Whether a text is a name of the schema language. -/
def isName (s : String) : Bool :=
  match s.toList with
  | [] => false
  | c :: cs => isNameStart c && cs.all isNameContinue

namespace TypeExpr

/-- A type expression of the schema language: it has a name inside, and no mark stands behind a mark. -/
def Proper : TypeExpr → Prop
  | named s => isName s = true
  | list item => item.Proper
  | nonNull inner => inner.Proper ∧ ∀ e, inner ≠ nonNull e

/-- The text of a type expression, without blanks. -/
def text : TypeExpr → String
  | named s => s
  | list item => "[" ++ item.text ++ "]"
  | nonNull inner => inner.text ++ "!"

end TypeExpr

/-- What is read as a token of the kind of names is a name. -/
theorem isName_of_lexeme {c : Char} {rest word : List Char} {length : ℕ}
    (h : lexeme c rest = .token .name word length) : isName (String.ofList word) = true := by
  unfold lexeme at h
  split at h
  · cases h
  · split at h
    · rcases kind_of_number h with hkind | hkind <;> cases hkind
    · split at h
      · next hstart =>
        obtain ⟨-, rfl, -⟩ := Lexeme.token.inj h
        rw [isName, String.toList_ofList]
        exact Bool.and_eq_true_iff.mpr ⟨hstart, List.all_takeWhile⟩
      · split at h
        · cases h
        · split at h
          · split at h
            · cases kind_of_blockBody h
            · cases kind_of_stringBody h
          · cases h

/-- The tokens of a text with the kind of names are names. -/
theorem isName_of_mem_tokens {text : String} : ∀ t ∈ tokens text, t.kind = .name → isName t.text = true := by
  refine forall_mem_tokens (fun _ => nofun) (fun _ => nofun) fun c rest word kind length offset hread => ?_
  rintro rfl
  exact isName_of_lexeme hread

/-- An expression that is spelled with names is proper. -/
theorem Spells.proper {e : TypeExpr} {ts : List Token} (h : Spells e ts)
    (hnames : ∀ t ∈ ts, t.kind = .name → isName t.text = true) : e.Proper := by
  induction h with
  | named ht => exact hnames _ List.mem_cons_self ht
  | list _ _ _ ih =>
    exact ih fun t ht => hnames t (List.mem_cons_of_mem _ (List.mem_append_left _ ht))
  | nonNull _ honce _ ih => exact ⟨ih fun t ht => hnames t (List.mem_append_left _ ht), honce⟩

section Text

variable {c : Char} {cs tail behind : List Char} {offset : ℕ}

/-- The first character of a name starts no other token and separates none. -/
theorem of_isNameStart (h : isNameStart c = true) :
    isPunctuator c = false ∧ c.isDigit = false ∧ c ≠ '-' ∧ isIgnored c = false ∧ c ≠ '#' := by
  refine ⟨?_, ?_, ?_, ?_, ?_⟩
  · rw [← Bool.not_eq_true]
    intro hc
    simp only [isPunctuator, List.contains_iff_mem, List.mem_cons, List.not_mem_nil, or_false] at hc
    rcases hc with rfl | rfl | rfl | rfl | rfl | rfl | rfl | rfl | rfl | rfl | rfl | rfl | rfl | rfl <;> cases h
  · rw [← Bool.not_eq_true]
    intro hc
    rw [Char.isDigit, Bool.and_eq_true, decide_eq_true_eq, decide_eq_true_eq] at hc
    change (decide (65 ≤ c.val ∧ c.val ≤ 90) || decide (97 ≤ c.val) && decide (c.val ≤ 122) || c == '_') = true at h
    simp only [Bool.or_eq_true, Bool.and_eq_true, decide_eq_true_eq, beq_iff_eq] at h
    -- letters and the low line stand behind the digits
    rcases h with (⟨hlow, -⟩ | ⟨hlow, -⟩) | rfl
    · exact absurd (UInt32.le_trans hlow hc.2) (by decide)
    · exact absurd (UInt32.le_trans hlow hc.2) (by decide)
    · exact absurd hc.2 (by decide)
  · rintro rfl
    cases h
  · rw [← Bool.not_eq_true]
    intro hc
    simp only [isIgnored, List.contains_iff_mem, List.mem_cons, List.not_mem_nil, or_false] at hc
    rcases hc with rfl | rfl | rfl | rfl | rfl | rfl <;> cases h
  · rintro rfl
    cases h

/-- The characters of a token are skipped behind its first one. -/
theorem tokensFrom_length (tail behind : List Char) (offset : ℕ) :
    tokensFrom tail.length offset false (tail ++ behind) =
      tokensFrom 0 (offset + tail.length) false behind := by
  induction tail generalizing offset with
  | nil => rfl
  | cons c rest ih =>
    rw [List.cons_append, List.length_cons, tokensFrom, if_pos (Nat.succ_pos _), Nat.add_sub_cancel, ih]
    congr 1
    omega

/-- A token is read where its characters stand, and the tokens behind it are those of what follows. -/
theorem tokensFrom_cons {kind : TokenKind} {word : List Char} (hignored : isIgnored c = false)
    (hcomment : c ≠ '#') (h : lexeme c (tail ++ behind) = .token kind word (tail.length + 1)) :
    tokensFrom 0 offset false (c :: (tail ++ behind)) =
      ⟨kind, String.ofList word, offset⟩ :: tokensFrom 0 (offset + (tail.length + 1)) false behind := by
  have hmarked : ¬ (c == '#') = true := by simpa using hcomment
  rw [tokensFrom, if_neg (Nat.lt_irrefl 0), if_neg Bool.false_ne_true, if_neg (by simp [hignored]),
    if_neg hmarked, h]
  change _ :: tokensFrom (tail.length + 1 - 1) (offset + 1) false (tail ++ behind) = _
  rw [Nat.add_sub_cancel, tokensFrom_length, Nat.add_assoc, Nat.add_comm 1]

/-- A punctuator is a token. -/
theorem tokensFrom_punctuator (h : isPunctuator c = true) :
    tokensFrom 0 offset false (c :: behind) =
      ⟨.punctuator c, String.ofList [c], offset⟩ :: tokensFrom 0 (offset + 1) false behind := by
  have hc : isIgnored c = false ∧ c ≠ '#' := by
    simp only [isPunctuator, List.contains_iff_mem, List.mem_cons, List.not_mem_nil, or_false] at h
    rcases h with rfl | rfl | rfl | rfl | rfl | rfl | rfl | rfl | rfl | rfl | rfl | rfl | rfl | rfl <;>
      exact ⟨rfl, by decide⟩
  exact @tokensFrom_cons c [] behind offset _ [c] hc.1 hc.2 (if_pos h)

/-- A name is a token in front of anything that a name does not go on with. -/
theorem tokensFrom_name {s : String} (h : isName s = true)
    (hbehind : ∀ c ∈ behind.head?, isNameContinue c = false) :
    tokensFrom 0 offset false (s.toList ++ behind) =
      ⟨.name, s, offset⟩ :: tokensFrom 0 (offset + s.toList.length) false behind := by
  unfold isName at h
  split at h
  · cases h
  · next c tail hs =>
    obtain ⟨hc, htail⟩ := Bool.and_eq_true_iff.mp h
    obtain ⟨hpunctuator, hdigit, hminus, hignored, hcomment⟩ := of_isNameStart hc
    have hstop : behind.takeWhile isNameContinue = [] := by
      cases behind with
      | nil => rfl
      | cons d more => exact List.takeWhile_cons_of_neg (by simp [hbehind d rfl])
    have hlexeme : lexeme c (tail ++ behind) = .token .name (c :: tail) (tail.length + 1) := by
      have htake : (tail ++ behind).takeWhile isNameContinue = tail := by
        rw [List.takeWhile_append_of_pos (List.all_eq_true.mp htail), hstop, List.append_nil]
      rw [lexeme, if_neg (by simp [hpunctuator]), if_neg (by simp [hdigit, hminus]), if_pos hc, htake,
        Nat.add_comm]
    have hword : String.ofList (c :: tail) = s := by rw [← hs, String.ofList_toList]
    rw [hs, List.cons_append, tokensFrom_cons hignored hcomment hlexeme, hword]
    rfl

/-- The tokens of the text of a type expression spell it. -/
theorem exists_spells {e : TypeExpr} (h : e.Proper) (offset : ℕ) {behind : List Char}
    (hbehind : ∀ c ∈ behind.head?, isNameContinue c = false) :
    ∃ used, Spells e used ∧ tokensFrom 0 offset false (e.text.toList ++ behind) =
      used ++ tokensFrom 0 (offset + e.text.toList.length) false behind := by
  induction e generalizing offset behind with
  | named s =>
    have hspells : Spells (.named (Token.mk .name s offset).text) [⟨.name, s, offset⟩] := .named rfl
    exact ⟨_, hspells, tokensFrom_name h hbehind⟩
  | list item ih =>
    have hclosing : ∀ c ∈ (']' :: behind).head?, isNameContinue c = false := fun c hc => Option.some.inj hc ▸ rfl
    obtain ⟨used, hspells, htokens⟩ := ih h (offset + 1) hclosing
    refine ⟨⟨.punctuator '[', "[", offset⟩ ::
      (used ++ [⟨.punctuator ']', "]", offset + 1 + item.text.toList.length⟩]), .list rfl hspells rfl, ?_⟩
    have htext : (TypeExpr.list item).text.toList = '[' :: (item.text.toList ++ [']']) := by
      simp [TypeExpr.text]
    have hlength : offset + (TypeExpr.list item).text.toList.length =
        offset + 1 + item.text.toList.length + 1 := by
      rw [htext, List.length_cons, List.length_append, List.length_singleton]
      omega
    rw [hlength, htext, List.cons_append, List.append_assoc, List.singleton_append, tokensFrom_punctuator rfl,
      htokens, tokensFrom_punctuator rfl]
    simp
  | nonNull inner ih =>
    have hmark : ∀ c ∈ ('!' :: behind).head?, isNameContinue c = false := fun c hc => Option.some.inj hc ▸ rfl
    obtain ⟨used, hspells, htokens⟩ := ih h.1 offset hmark
    refine ⟨used ++ [⟨.punctuator '!', "!", offset + inner.text.toList.length⟩],
      .nonNull hspells h.2 rfl, ?_⟩
    have htext : (TypeExpr.nonNull inner).text.toList = inner.text.toList ++ ['!'] := by
      simp [TypeExpr.text]
    rw [htext, List.append_assoc, List.singleton_append, htokens, tokensFrom_punctuator rfl, List.length_append,
      List.length_singleton]
    simp [Nat.add_assoc]

/-- The text of a type expression writes it. -/
theorem writes_text {e : TypeExpr} (h : e.Proper) : Writes e.text e := by
  have hend : ∀ c ∈ ([] : List Char).head?, isNameContinue c = false := nofun
  obtain ⟨used, hspells, htokens⟩ := exists_spells h 0 hend
  rw [List.append_nil] at htokens
  exact ⟨used, ⟨.finish, "", 0 + e.text.toList.length⟩, htokens, rfl, hspells⟩

end Text

end SchemaReconcile.Sdl
