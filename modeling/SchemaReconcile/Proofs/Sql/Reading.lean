import Mathlib.Data.List.Forall2
import SchemaReconcile.Proofs.Sql.Lexer

/-!
# Reading a statement by its pieces

The tokens of a statement can be had without its text: an identifier is one token, a literal is one, and the
tokens of fixed text are found by themselves.  This needs that no token runs over the end of a piece.
Whether it does depends on how the last token before ended (`Edge`) and on the character that follows: a
double quote may not follow an identifier, for one.  `read` checks this from piece to piece.

What is read in this way is what the lexer reads in the text of the statement (`lex_of_read`), whatever the
names and texts in it are.  So the tokens of a definition statement are a matter of computing `read`, with
its names and texts left open.
-/

namespace SchemaReconcile.Sql

/-! ## Edges -/

/-- How the last token before a piece ended. -/
inductive Edge where
  | gap
  | dot
  | word
  | name
  | text
  deriving DecidableEq, Repr

/-- Whether the last token is at its end before a character. -/
def Edge.admits : Edge → Char → Bool
  | gap, _ => true
  | dot, c => c != '.'
  | word, c => !isWordPart c && c != '\''
  | name, c => c != '"'
  | text, c => !isBlank c && c != '\''

namespace Mode

/-- How the last token ended, if one is at its end. -/
def edge? : Mode → Option Edge
  | gap => some .gap
  | dot => some .dot
  | word _ => some .word
  | nameQuote cs => if cs.isEmpty then none else some .name
  | textQuote .. => some .text
  | _ => none

/-- The last token ends in a certain way in a mode, and is left to be counted. -/
structure Ends (m : Mode) (e : Edge) (ts : List Token) : Prop where
  edge : m.edge? = some e
  close : m.close = some ts

/-- A token that is at its end is left before a character that it admits. -/
theorem Ends.step_eq {m : Mode} {e : Edge} {ts : List Token} (h : m.Ends e ts) {c : Char}
    (hc : e.admits c = true) : m.step c = m.leave c := by
  obtain ⟨hedge, -⟩ := h
  cases m with
  | gap => rfl
  | dot =>
    obtain rfl := Option.some.inj hedge
    have hne : c ≠ '.' := by simpa [Edge.admits] using hc
    rw [step, if_neg hne]
  | word cs =>
    obtain rfl := Option.some.inj hedge
    obtain ⟨hpart, hne⟩ : isWordPart c = false ∧ c ≠ '\'' := by simpa [Edge.admits] using hc
    rw [step, hpart, if_neg Bool.false_ne_true, if_neg hne]
  | nameQuote cs =>
    rw [edge?] at hedge
    split at hedge
    · cases hedge
    · obtain rfl := Option.some.inj hedge
      have hne : c ≠ '"' := by simpa [Edge.admits] using hc
      rw [step, if_neg hne]
  | textQuote escapes cs =>
    obtain rfl := Option.some.inj hedge
    obtain ⟨hblank, hne⟩ : isBlank c = false ∧ c ≠ '\'' := by simpa [Edge.admits] using hc
    rw [step, if_neg hne, hblank, if_neg Bool.false_ne_true]
  | _ => cases hedge

/-- What follows a token that is at its end is read as after a blank. -/
theorem Ends.run_cons {m m' : Mode} {e : Edge} {ts us : List Token} (h : m.Ends e ts) {c : Char}
    {cs : List Char} (hc : e.admits c = true) (hrun : run .gap (c :: cs) = some (us, m')) :
    run m (c :: cs) = some (ts ++ us, m') := by
  obtain ⟨first, middle, rest, hstep, hrest, rfl⟩ := exists_of_run_cons hrun
  have hleave : m.step c = some (ts ++ first, middle) := by
    rw [h.step_eq hc, leave, h.close]
    rw [step, leave, Mode.close] at hstep
    cases hstart : start c with
    | none => simp [hstart] at hstep
    | some p =>
      rw [hstart] at hstep
      obtain ⟨rfl, rfl⟩ := Prod.mk.inj (Option.some.inj hstep)
      rfl
  rw [← List.append_assoc]
  exact Mode.run_cons hleave hrest

end Mode

/-! ## Pieces -/

/-- The tokens of a fixed text after an edge. -/
def readFixed (e : Edge) : List Char → Option (List Token × Edge)
  | [] => none
  | c :: cs =>
    if e.admits c then
      match Mode.run .gap (c :: cs) with
      | none => none
      | some (ts, m) =>
        match m.close, m.edge? with
        | some us, some e' => some (ts ++ us, e')
        | _, _ => none
    else none

/-- The tokens of a piece after an edge.  A literal with escapes starts with a blank, so a literal is read
behind a blank or a symbol only. -/
def readPiece (e : Edge) : Piece → Option (List Token × Edge)
  | .fixed text => readFixed e text.toList
  | .identifier name => if e.admits '"' then some ([.identifier name], .name) else none
  | .literal text => if e = .gap then some ([.string text], .text) else none

/-- The tokens of a statement after an edge. -/
def read : Edge → Statement → Option (List Token × Edge)
  | e, [] => some ([], e)
  | e, p :: s =>
    match readPiece e p with
    | none => none
    | some (ts, e') =>
      match read e' s with
      | none => none
      | some (us, e'') => some (ts ++ us, e'')

section

variable {e e' e'' : Edge} {p : Piece} {s s' : Statement} {ts us : List Token}

/-- A piece is read, and then the others. -/
theorem read_cons (hp : readPiece e p = some (ts, e')) (hs : read e' s = some (us, e'')) :
    read e (p :: s) = some (ts ++ us, e'') := by
  simp [read, hp, hs]

/-- What is read when there is a first piece. -/
theorem exists_of_read_cons (h : read e (p :: s) = some (ts, e'')) :
    ∃ first e' rest, readPiece e p = some (first, e') ∧ read e' s = some (rest, e'') ∧
      ts = first ++ rest := by
  rw [read] at h
  split at h
  · cases h
  · next first e' hp =>
    split at h
    · cases h
    · next rest last hs =>
      obtain ⟨rfl, rfl⟩ := Prod.mk.inj (Option.some.inj h)
      exact ⟨first, e', rest, hp, hs, rfl⟩

/-- One part of a statement is read, and then another. -/
theorem read_append (hs : read e s = some (ts, e')) (hs' : read e' s' = some (us, e'')) :
    read e (s ++ s') = some (ts ++ us, e'') := by
  induction s generalizing e ts with
  | nil =>
    obtain ⟨rfl, rfl⟩ := Prod.mk.inj (Option.some.inj hs)
    exact hs'
  | cons p s ih =>
    obtain ⟨first, middle, rest, hp, hrest, rfl⟩ := exists_of_read_cons hs
    rw [List.append_assoc]
    exact read_cons hp (ih hrest)

/-! ## Texts -/

/-- A piece that is read has a text with these tokens, as long as an identifier is not empty. -/
theorem run_of_readPiece (h : readPiece e p = some (ts, e')) (hp : p ≠ .identifier "") :
    ∃ c cs, p.render.toList = c :: cs ∧ e.admits c = true ∧
      ∃ us m vs, Mode.run .gap (c :: cs) = some (us, m) ∧ m.Ends e' vs ∧ ts = us ++ vs := by
  cases p with
  | fixed text =>
    rw [readPiece] at h
    cases hchars : text.toList with
    | nil =>
      rw [hchars] at h
      cases h
    | cons c cs =>
      rw [hchars, readFixed] at h
      split at h
      · next hc =>
        split at h
        · cases h
        · next us m hrun =>
          split at h
          · next vs e' hclose hedge =>
            obtain ⟨rfl, rfl⟩ := Prod.mk.inj (Option.some.inj h)
            exact ⟨c, cs, hchars, hc, us, m, vs, hrun, ⟨hedge, hclose⟩, rfl⟩
          · cases h
      · cases h
  | identifier name =>
    rw [readPiece] at h
    split at h
    · next hc =>
      obtain ⟨rfl, rfl⟩ := Prod.mk.inj (Option.some.inj h)
      have hrun := Mode.run_quoteIdentifier name
      have hname : name.toList.isEmpty = false := by
        rw [List.isEmpty_eq_false_iff, Ne, String.toList_eq_nil_iff]
        rintro rfl
        exact hp rfl
      rw [quoteIdentifier, String.toList_ofList, List.cons_append] at hrun
      refine ⟨'"', _, by rw [Piece.render, quoteIdentifier, String.toList_ofList]; rfl, hc, [], _,
        [.identifier name], hrun, ⟨?_, ?_⟩, rfl⟩
      · rw [Mode.edge?, hname]
        rfl
      · rw [Mode.close, hname, String.ofList_toList]
        rfl
    · cases h
  | literal text =>
    rw [readPiece] at h
    split at h
    · next he =>
      subst he
      obtain ⟨rfl, rfl⟩ := Prod.mk.inj (Option.some.inj h)
      obtain ⟨escapes, hrun⟩ := Mode.run_quoteLiteral text
      obtain ⟨c, cs, hchars⟩ : ∃ c cs, (quoteLiteral text).toList = c :: cs := by
        unfold quoteLiteral
        dsimp only
        split <;> exact ⟨_, _, String.toList_ofList⟩
      rw [hchars] at hrun
      exact ⟨c, cs, hchars, rfl, [], _, [.string text], hrun,
        ⟨rfl, by rw [Mode.close, String.ofList_toList]⟩, rfl⟩
    · cases h

/-- A statement that is read has a text with these tokens, wherever it starts. -/
theorem run_of_read (h : read e s = some (ts, e')) (hs : .identifier "" ∉ s) {m : Mode}
    {before : List Token} (hm : m.Ends e before) :
    ∃ us m' after, Mode.run m (String.join (s.map Piece.render)).toList = some (us, m') ∧
      m'.Ends e' after ∧ before ++ ts = us ++ after := by
  induction s generalizing e ts m before with
  | nil =>
    obtain ⟨rfl, rfl⟩ := Prod.mk.inj (Option.some.inj h)
    exact ⟨[], m, before, rfl, hm, List.append_nil before⟩
  | cons p s ih =>
    obtain ⟨first, middle, rest, hp, hrest, rfl⟩ := exists_of_read_cons h
    rw [List.mem_cons, not_or] at hs
    obtain ⟨hne, hs⟩ := hs
    obtain ⟨c, cs, hchars, hc, us, m', vs, hrun, hm', rfl⟩ := run_of_readPiece hp (Ne.symm hne)
    obtain ⟨ws, m'', after, hrun', hm'', htokens⟩ := ih hrest hs hm'
    refine ⟨before ++ us ++ ws, m'', after, ?_, hm'', ?_⟩
    · rw [List.map_cons, String.join_cons, String.toList_append, hchars]
      exact Mode.run_append (hm.run_cons hc hrun) hrun'
    · rw [List.append_assoc (before ++ us), ← htokens]
      simp only [List.append_assoc]

/-- The lexer finds in the text of a statement the tokens that are read piece by piece. -/
theorem lex_of_read (h : read .gap s = some (ts, e)) (hs : .identifier "" ∉ s) {text : String}
    (htext : render? s = some text) : lex text = some ts := by
  unfold render? at htext
  split at htext
  · obtain rfl := Option.some.inj htext
    obtain ⟨us, m, after, hrun, hm, htokens⟩ := run_of_read h hs (m := .gap) ⟨rfl, rfl⟩
    rw [lex, hrun]
    dsimp only
    rw [hm.close, Option.map_some, ← htokens]
    rfl
  · cases htext

/-- A literal of a statement is one of the tokens that are read. -/
theorem string_mem_of_read (h : read e s = some (ts, e')) {text : String} (hmem : .literal text ∈ s) :
    .string text ∈ ts := by
  induction s generalizing e ts with
  | nil => cases hmem
  | cons p s ih =>
    obtain ⟨first, middle, rest, hp, hrest, rfl⟩ := exists_of_read_cons h
    rcases List.mem_cons.mp hmem with rfl | hmem
    · rw [readPiece] at hp
      split at hp
      · obtain ⟨rfl, -⟩ := Prod.mk.inj (Option.some.inj hp)
        exact List.mem_append_left _ (List.mem_singleton_self _)
      · cases hp
    · exact List.mem_append_right _ (ih hrest hmem)

end

/-! ## Lists -/

/-- The tokens of a statement that stands by itself, or at the start of a list entry. -/
def Reads (s : Statement) (ts : List Token) : Prop := ∃ e, read .gap s = some (ts, e)

/-- Groups of tokens with commas between them. -/
def commas : List (List Token) → List Token
  | [] => []
  | [ts] => ts
  | ts :: rest => ts ++ .symbol ',' :: commas rest

/-- Groups of tokens with commas between them, in parentheses. -/
def listed (groups : List (List Token)) : List Token := .symbol '(' :: (commas groups ++ [.symbol ')'])

/-- Parts that are separated by commas are read one by one. -/
theorem reads_separatedBy {parts : List Statement} {groups : List (List Token)}
    (h : List.Forall₂ Reads parts groups) : Reads (separatedBy ", " parts) (commas groups) := by
  induction h with
  | nil => exact ⟨.gap, rfl⟩
  | @cons part group parts groups hpart hrest ih =>
    obtain ⟨e, hpart⟩ := hpart
    cases hrest with
    | nil => exact ⟨e, hpart⟩
    | cons hnext hrest =>
      obtain ⟨e', hparts⟩ := ih
      -- a comma ends whatever token comes before it
      have hcomma : readPiece e (.fixed ", ") = some ([.symbol ','], .gap) := by cases e <;> rfl
      exact ⟨e', read_append hpart (read_cons hcomma hparts)⟩

/-- Parts in parentheses are read one by one. -/
theorem read_listed {e : Edge} {opening : String} {ts : List Token} {parts : List Statement}
    {groups : List (List Token)} (hopening : readPiece e (.fixed opening) = some (ts ++ [.symbol '('], .gap))
    (h : List.Forall₂ Reads parts groups) :
    read e (.fixed opening :: separatedBy ", " parts ++ [.fixed ")"]) =
      some (ts ++ listed groups, .gap) := by
  obtain ⟨e', hparts⟩ := reads_separatedBy h
  have hclosing : read e' [.fixed ")"] = some ([.symbol ')'], .gap) := by cases e' <;> rfl
  have hread := read_append (read_cons hopening hparts) hclosing
  rw [List.append_assoc, List.append_assoc] at hread
  exact hread

end SchemaReconcile.Sql
