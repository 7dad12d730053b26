import SchemaReconcile.Proofs.Sdl.Integers
import SchemaReconcile.Sdl.Reader

/-!
# Tokens in front of a reader

The tokens of a text end with the end of the text or with the place of its fault, which stands nowhere else
(`ended_tokens`).  A reader looks at the token behind each one that it consumes, so on such tokens it is known
exactly when it succeeds and what it leaves: one statement for each of the readers of single tokens
(`expect_eq_ok_iff`, `name_eq_ok_iff`, `expectMark_eq_ok_iff`, `skipMark_eq_ok_iff`).
-/

namespace SchemaReconcile.Sdl

open Reading

/-! ## Ended tokens -/

/-- A token of a kind is neither the end of a text nor the place of its fault. -/
def TokenKind.GoesOn (kind : TokenKind) : Prop := kind ≠ .finish ∧ kind ≠ .invalid

theorem TokenKind.goesOn_name : TokenKind.name.GoesOn := ⟨nofun, nofun⟩

theorem TokenKind.goesOn_punctuator (c : Char) : (TokenKind.punctuator c).GoesOn := ⟨nofun, nofun⟩

/-- Tokens end with the end of a text or with the place of its fault, and neither stands before. -/
inductive Ended : List Token → Prop where
  | last {t : Token} (h : ¬ t.kind.GoesOn) : Ended [t]
  | cons {t : Token} {ts : List Token} (ht : t.kind.GoesOn) (h : Ended ts) : Ended (t :: ts)

/-- A reader may stand in front of tokens: they do not start with the place of a fault. -/
def Stands (ts : List Token) : Prop := ∀ t ∈ ts.head?, t.kind ≠ .invalid

namespace Ended

variable {t : Token} {ts used : List Token}

/-- A token that goes on leaves tokens ended or not. -/
theorem cons_iff (ht : t.kind.GoesOn) : Ended (t :: ts) ↔ Ended ts := by
  constructor
  · intro h
    cases h with
    | last h => exact absurd ht h
    | cons _ h => exact h
  · exact .cons ht

/-- Tokens that go on leave those behind them ended or not. -/
theorem append_iff (hused : ∀ t ∈ used, t.kind.GoesOn) : Ended (used ++ ts) ↔ Ended ts := by
  induction used with
  | nil => rfl
  | cons t rest ih =>
    obtain ⟨ht, hrest⟩ := List.forall_mem_cons.mp hused
    rw [List.cons_append, cons_iff ht, ih hrest]

/-- Ended tokens start with one. -/
theorem exists_cons (h : Ended ts) : ∃ t rest, ts = t :: rest := by
  cases h with
  | last => exact ⟨_, _, rfl⟩
  | cons => exact ⟨_, _, rfl⟩

/-- Nothing stands behind the end of a text. -/
theorem eq_singleton (h : Ended (t :: ts)) (hfinish : t.kind = .finish) : ts = [] := by
  cases h with
  | last => rfl
  | cons ht => exact absurd hfinish ht.1

end Ended

/-- A reader may stand in front of tokens that go on, as it may in front of those behind them. -/
theorem stands_append {used ts : List Token} (hused : ∀ t ∈ used, t.kind.GoesOn) (hts : Stands ts) :
    Stands (used ++ ts) := by
  cases used with
  | nil => exact hts
  | cons u more => exact fun t ht => Option.some.inj ht ▸ (hused u List.mem_cons_self).2

/-- Reading a number yields an integer or a float. -/
theorem kind_of_number {cs text : List Char} {kind : TokenKind} {length : ℕ}
    (h : number cs = .token kind text length) : kind = .int ∨ kind = .float := by
  have hkind : ∀ {plain : Bool} {read : List Char} {n : ℕ},
      Lexeme.token (if plain = true then TokenKind.int else TokenKind.float) read n =
        .token kind text length → kind = .int ∨ kind = .float := by
    intro plain read n htoken
    rw [← (Lexeme.token.inj htoken).1]
    split
    · exact .inl rfl
    · exact .inr rfl
  unfold number at h
  split at h
  split at h
  · cases h
  · dsimp only at h
    split at h
    · cases h
    · split at h
      · cases h
      · split at h
        · split at h
          · cases h
          · exact hkind h
        · exact hkind h

/-- No token that is read is the end of a text or the place of a fault. -/
theorem goesOn_of_lexeme {c : Char} {rest text : List Char} {kind : TokenKind} {length : ℕ}
    (h : lexeme c rest = .token kind text length) : kind.GoesOn := by
  unfold lexeme at h
  split at h
  · exact (Lexeme.token.inj h).1 ▸ ⟨nofun, nofun⟩
  · split at h
    · rcases kind_of_number h with rfl | rfl
      · exact ⟨nofun, nofun⟩
      · exact ⟨nofun, nofun⟩
    · split at h
      · exact (Lexeme.token.inj h).1 ▸ ⟨nofun, nofun⟩
      · split at h
        · exact (Lexeme.token.inj h).1 ▸ ⟨nofun, nofun⟩
        · split at h
          · split at h
            · exact kind_of_blockBody h ▸ ⟨nofun, nofun⟩
            · exact kind_of_stringBody h ▸ ⟨nofun, nofun⟩
          · cases h

/-- The tokens of a text are ended. -/
theorem ended_tokens (text : String) : Ended (tokens text) := by
  have hfrom : ∀ (cs : List Char) (skip offset : ℕ) (comment : Bool),
      Ended (tokensFrom skip offset comment cs) := by
    intro cs
    induction cs with
    | nil => exact fun _ _ _ => .last fun h => h.1 rfl
    | cons c rest ih =>
      intro skip offset comment
      unfold tokensFrom
      split
      · exact ih _ _ _
      · split
        · exact ih _ _ _
        · split
          · exact ih _ _ _
          · split
            · exact ih _ _ _
            · split
              · next hread => exact .cons (goesOn_of_lexeme hread) (ih _ _ _)
              · exact .last fun h => h.2 rfl
  exact hfrom _ _ _ _

/-! ## Single tokens -/

section Single

variable {ts rest : List Token} {t : Token} {kind : TokenKind}

/-- A token that ends nothing is consumed, unless the text is at fault behind it. -/
theorem advance_eq_ok_iff (h : Ended (t :: ts)) (ht : t.kind.GoesOn) :
    advance (t :: ts) = .ok ((), rest) ↔ rest = ts ∧ Stands ts := by
  obtain ⟨u, more, rfl⟩ := ((Ended.cons_iff ht).mp h).exists_cons
  have hadvance : advance (t :: u :: more) =
      (if u.kind == .invalid then failAt u else set (u :: more) : Reading Unit) (t :: u :: more) := rfl
  rw [hadvance]
  by_cases hu : u.kind = .invalid
  · rw [if_pos (beq_iff_eq.mpr hu)]
    refine iff_of_false nofun fun hrest => hrest.2 u rfl hu
  · rw [if_neg (by simpa using hu)]
    constructor
    · rintro ⟨⟩
      exact ⟨rfl, fun t ht => Option.some.inj ht ▸ hu⟩
    · rintro ⟨rfl, -⟩
      rfl

/-- A token of a kind that ends nothing is expected. -/
theorem expect_eq_ok_iff (hts : Ended ts) (hkind : kind.GoesOn) :
    expect kind ts = .ok (t, rest) ↔ ts = t :: rest ∧ t.kind = kind ∧ Stands rest := by
  obtain ⟨u, more, rfl⟩ := hts.exists_cons
  have hexpect : expect kind (u :: more) =
      (if u.kind == kind then do advance; return u else failAt u : Reading Token) (u :: more) := rfl
  rw [hexpect]
  by_cases hu : u.kind = kind
  · rw [if_pos (beq_iff_eq.mpr hu)]
    subst hu
    constructor
    · intro h
      obtain ⟨⟨⟨⟩, left⟩, hadvance, hdone⟩ := bind_eq_ok.mp h
      obtain ⟨rfl, rfl⟩ := Prod.mk.inj (Except.ok.inj hdone)
      obtain ⟨rfl, hstands⟩ := (advance_eq_ok_iff hts hkind).mp hadvance
      exact ⟨rfl, rfl, hstands⟩
    · rintro ⟨heq, -, hstands⟩
      obtain ⟨rfl, rfl⟩ := List.cons.inj heq
      exact bind_eq_ok.mpr ⟨((), more), (advance_eq_ok_iff hts hkind).mpr ⟨rfl, hstands⟩, rfl⟩
  · rw [if_neg (by simpa using hu)]
    refine iff_of_false nofun ?_
    rintro ⟨heq, hkind', -⟩
    exact hu ((List.cons.inj heq).1 ▸ hkind')

/-- The end of a text is found where nothing is left. -/
theorem expect_finish_eq_ok_iff (hts : Ended ts) :
    expect .finish ts = .ok (t, rest) ↔ ts = [t] ∧ t.kind = .finish ∧ rest = [t] := by
  obtain ⟨u, more, rfl⟩ := hts.exists_cons
  have hexpect : expect .finish (u :: more) =
      (if u.kind == .finish then do advance; return u else failAt u : Reading Token) (u :: more) := rfl
  rw [hexpect]
  by_cases hu : u.kind = .finish
  · obtain rfl := hts.eq_singleton hu
    rw [if_pos (beq_iff_eq.mpr hu)]
    constructor
    · rintro ⟨⟩
      exact ⟨rfl, hu, rfl⟩
    · rintro ⟨heq, -, rfl⟩
      obtain rfl := (List.cons.inj heq).1
      rfl
  · rw [if_neg (by simpa using hu)]
    refine iff_of_false nofun ?_
    rintro ⟨heq, hkind, -⟩
    exact hu ((List.cons.inj heq).1 ▸ hkind)

/-- A reader whose result is not needed succeeds when it does. -/
theorem discard_eq_ok_iff {α : Type} {reader : Reading α} :
    (discard reader : Reading Unit) ts = .ok ((), rest) ↔ ∃ a, reader ts = .ok (a, rest) := by
  constructor
  · intro h
    obtain ⟨⟨a, left⟩, hread, hdone⟩ := bind_eq_ok.mp ((map_eq_pure_bind _ _).symm.trans h)
    obtain ⟨-, rfl⟩ := Prod.mk.inj (Except.ok.inj hdone)
    exact ⟨a, hread⟩
  · rintro ⟨a, hread⟩
    exact (map_eq_pure_bind _ _).trans (bind_eq_ok.mpr ⟨(a, rest), hread, rfl⟩)

/-- A name is read off its token. -/
theorem name_eq_ok_iff (hts : Ended ts) {s : String} :
    name ts = .ok (s, rest) ↔ ∃ t, ts = t :: rest ∧ t.kind = .name ∧ t.text = s ∧ Stands rest := by
  constructor
  · intro h
    obtain ⟨⟨t, left⟩, hexpect, hdone⟩ := bind_eq_ok.mp h
    obtain ⟨rfl, rfl⟩ := Prod.mk.inj (Except.ok.inj hdone)
    obtain ⟨heq, hkind, hstands⟩ := (expect_eq_ok_iff hts TokenKind.goesOn_name).mp hexpect
    exact ⟨t, heq, hkind, rfl, hstands⟩
  · rintro ⟨t, heq, hkind, rfl, hstands⟩
    exact bind_eq_ok.mpr ⟨(t, rest), (expect_eq_ok_iff hts TokenKind.goesOn_name).mpr ⟨heq, hkind, hstands⟩,
      rfl⟩

/-- A punctuator is consumed where it is expected. -/
theorem expectMark_eq_ok_iff (hts : Ended ts) {c : Char} :
    expectMark c ts = .ok ((), rest) ↔ ∃ t, ts = t :: rest ∧ t.kind = .punctuator c ∧ Stands rest := by
  rw [expectMark, discard_eq_ok_iff]
  exact exists_congr fun t => expect_eq_ok_iff hts (TokenKind.goesOn_punctuator c)

/-- A punctuator is consumed if it is there. -/
theorem skipMark_eq_ok_iff (hts : Ended ts) {c : Char} {found : Bool} :
    skipMark c ts = .ok (found, rest) ↔
      (found = true ∧ ∃ t, ts = t :: rest ∧ t.kind = .punctuator c ∧ Stands rest) ∨
        (found = false ∧ rest = ts ∧ ∀ t ∈ ts.head?, t.kind ≠ .punctuator c) := by
  obtain ⟨u, more, rfl⟩ := hts.exists_cons
  have hskip : skipMark c (u :: more) =
      (if u.kind == .punctuator c then do advance; return true else return false : Reading Bool)
        (u :: more) := rfl
  rw [hskip]
  by_cases hu : u.kind = .punctuator c
  · have hgoes : u.kind.GoesOn := hu ▸ TokenKind.goesOn_punctuator c
    rw [if_pos (beq_iff_eq.mpr hu)]
    constructor
    · intro h
      obtain ⟨⟨⟨⟩, left⟩, hadvance, hdone⟩ := bind_eq_ok.mp h
      obtain ⟨rfl, rfl⟩ := Prod.mk.inj (Except.ok.inj hdone)
      obtain ⟨rfl, hstands⟩ := (advance_eq_ok_iff hts hgoes).mp hadvance
      exact .inl ⟨rfl, u, rfl, hu, hstands⟩
    · rintro (⟨rfl, t, heq, -, hstands⟩ | ⟨-, -, hnone⟩)
      · obtain ⟨rfl, rfl⟩ := List.cons.inj heq
        exact bind_eq_ok.mpr ⟨((), more), (advance_eq_ok_iff hts hgoes).mpr ⟨rfl, hstands⟩, rfl⟩
      · exact absurd hu (hnone u rfl)
  · rw [if_neg (by simpa using hu)]
    constructor
    · rintro ⟨⟩
      exact .inr ⟨rfl, rfl, fun t ht => Option.some.inj ht ▸ hu⟩
    · rintro (⟨-, t, heq, hkind, -⟩ | ⟨rfl, rfl, -⟩)
      · exact absurd ((List.cons.inj heq).1 ▸ hkind) hu
      · rfl

end Single

/-! ## Sequences and whole texts -/

/-- A reader in sequence goes on where the one before it stopped. -/
theorem bind_of_eq_ok {α β : Type} {x : Reading α} {ts rest : List Token} {a : α} (h : x ts = .ok (a, rest))
    (f : α → Reading β) : (x >>= f) ts = f a rest := by
  change (x ts >>= fun p => f p.1 p.2) = f a rest
  rw [h]
  rfl

/-- A reader succeeds on a text that does not start with a fault when it does on its tokens. -/
theorem run_eq_ok_iff {α : Type} {text : String} {reader : ℕ → Reading α} {a : α} :
    run text reader = .ok a ↔
      Stands (tokens text) ∧ ∃ left, reader ((tokens text).length + 1) (tokens text) = .ok (a, left) := by
  unfold run
  dsimp only
  split
  · next t start more htokens =>
    rw [htokens]
    exact iff_of_false nofun fun h => h.1 _ rfl rfl
  · next hnone =>
    have hstands : Stands (tokens text) := by
      intro t ht hinvalid
      obtain ⟨more, htokens⟩ := List.head?_eq_some_iff.mp ht
      obtain ⟨kind, word, start⟩ := t
      subst hinvalid
      exact hnone word start more htokens
    rw [and_iff_right hstands]
    constructor
    · intro h
      obtain ⟨⟨found, left⟩, hread, rfl⟩ := map_eq_ok.mp h
      exact ⟨left, hread⟩
    · rintro ⟨left, hread⟩
      exact map_eq_ok.mpr ⟨(a, left), hread, rfl⟩

end SchemaReconcile.Sdl
