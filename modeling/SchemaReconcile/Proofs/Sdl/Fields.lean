import SchemaReconcile.Proofs.Sdl.Types
import SchemaReconcile.Proofs.Sdl.Walk

/-!
# Fields in tokens

A field definition that is read stands in the tokens of its text (`FieldDefinition.WrittenIn`): its name, its
arguments between parentheses if it has any, a colon, and the tokens that spell its type.  What is read before and
behind these is left to other readers, of which it is enough to know that they leave tokens at the end of those that
they were given (`endOf`).
-/

namespace SchemaReconcile.Sdl

open Reading

/-- Tokens are none, or some between parentheses. -/
def Parenthesised (ts : List Token) : Prop :=
  ts = [] ∨ ∃ opening inside closing, ts = opening :: (inside ++ [closing]) ∧
    opening.kind = .punctuator '(' ∧ closing.kind = .punctuator ')'

/-- A field definition stands in tokens, with the tokens of its type up to their last mark. -/
inductive FieldDefinition.WrittenIn (f : FieldDefinition) : List Token → Prop where
  | intro {before arguments type behind : List Token} {key colon : Token} (hkey : key.kind = .name)
      (hname : key.text = f.name) (harguments : Parenthesised arguments)
      (hcolon : colon.kind = .punctuator ':') (htype : Spells f.type type) (hcomplete : f.type.Complete behind) :
      f.WrittenIn (before ++ key :: (arguments ++ colon :: (type ++ behind)))

/-- The type of a field that stands in the tokens of a text is proper. -/
theorem FieldDefinition.WrittenIn.proper {text : String} {f : FieldDefinition} (h : f.WrittenIn (tokens text)) :
    f.type.Proper := by
  have hnames : ∀ t ∈ tokens text, t.kind = .name → isName t.text = true := isName_of_mem_tokens
  generalize tokens text = ts at h hnames
  cases h with
  | intro hkey hname harguments hcolon htype hcomplete =>
    exact htype.proper fun t ht => hnames t (by simp [ht])

/-- The tokens that are left are those at the end of given ones, and they are ended. -/
def endOf (given : List Token) : TokenInvariant where
  Holds left := left <:+ given ∧ Ended left
  tail := by
    rintro t u rest ⟨hsuffix, hended⟩
    refine ⟨(List.suffix_cons t _).trans hsuffix, ?_⟩
    cases hended with
    | cons _ h => exact h

variable {α : Type} {item : Reading α} {ts rest given : List Token} {fuel : ℕ}

/-- A reader that walks along tokens leaves the last of them. -/
theorem exists_append_of_walks (h : Walks (endOf ts) item) (hts : Ended ts) {a : α}
    (hread : item ts = .ok (a, rest)) : (∃ used, ts = used ++ rest) ∧ Ended rest := by
  obtain ⟨-, ⟨used, hused⟩, hended⟩ := h ts ⟨List.suffix_refl ts, hts⟩ a rest hread
  exact ⟨⟨used, hused.symm⟩, hended⟩

/-- Items are read up to a closing punctuator. -/
theorem exists_closing_of_itemsUntil (hitem : ∀ ts, Walks (endOf ts) item) {close : Char} {items : List α}
    (hts : Ended ts) (h : itemsUntil close item fuel ts = .ok (items, rest)) :
    ∃ inside closing, ts = inside ++ closing :: rest ∧ closing.kind = .punctuator close := by
  induction fuel generalizing ts items with
  | zero =>
    obtain ⟨t, more, rfl⟩ := hts.exists_cons
    cases h
  | succ fuel ih =>
    obtain ⟨⟨found, left⟩, hskip, hthen⟩ := bind_eq_ok.mp h
    rcases (skipMark_eq_ok_iff hts).mp hskip with ⟨rfl, closing, rfl, hclosing, -⟩ | ⟨rfl, rfl, -⟩
    · obtain ⟨-, rfl⟩ := Prod.mk.inj (Except.ok.inj hthen)
      exact ⟨[], closing, rfl, hclosing⟩
    · obtain ⟨⟨first, behind⟩, hfirst, hrest⟩ := bind_eq_ok.mp hthen
      obtain ⟨⟨used, rfl⟩, hbehind⟩ := exists_append_of_walks (hitem _) hts hfirst
      obtain ⟨⟨more, last⟩, hmore, hdone⟩ := bind_eq_ok.mp hrest
      obtain ⟨-, rfl⟩ := Prod.mk.inj (Except.ok.inj hdone)
      obtain ⟨inside, closing, rfl, hclosing⟩ := ih hbehind hmore
      exact ⟨used ++ inside, closing, by simp, hclosing⟩

/-- Items between parentheses are read from none to the closing one. -/
theorem exists_parenthesised (hitem : ∀ ts, Walks (endOf ts) item) {items : List α} (hts : Ended ts)
    (h : optionalMany '(' ')' item fuel ts = .ok (items, rest)) :
    ∃ used, ts = used ++ rest ∧ Parenthesised used := by
  obtain ⟨⟨found, left⟩, hat, hthen⟩ := bind_eq_ok.mp h
  obtain ⟨u, more, rfl⟩ := hts.exists_cons
  obtain ⟨rfl, rfl⟩ := Prod.mk.inj (Except.ok.inj hat)
  change (if (u.kind == .punctuator '(') = true then many '(' ')' item fuel else pure []) (u :: more) =
    .ok (items, rest) at hthen
  split at hthen
  · obtain ⟨⟨⟨⟩, left⟩, hopen, hfirst⟩ := bind_eq_ok.mp hthen
    obtain ⟨opening, heq, hopening, -⟩ := (expectMark_eq_ok_iff hts).mp hopen
    obtain ⟨rfl, rfl⟩ := List.cons.inj heq
    have hleft : Ended more := (Ended.cons_iff (hopening ▸ TokenKind.goesOn_punctuator _)).mp hts
    obtain ⟨⟨first, behind⟩, hread, huntil⟩ := bind_eq_ok.mp hfirst
    obtain ⟨⟨used, rfl⟩, hbehind⟩ := exists_append_of_walks (hitem _) hleft hread
    obtain ⟨⟨others, last⟩, hothers, hdone⟩ := bind_eq_ok.mp huntil
    obtain ⟨-, rfl⟩ := Prod.mk.inj (Except.ok.inj hdone)
    obtain ⟨inside, closing, rfl, hclosing⟩ := exists_closing_of_itemsUntil hitem hbehind hothers
    exact ⟨u :: (used ++ inside ++ [closing]), by simp, .inr ⟨u, _, closing, rfl, hopening, hclosing⟩⟩
  · obtain ⟨-, rfl⟩ := Prod.mk.inj (Except.ok.inj hthen)
    exact ⟨[], rfl, .inl rfl⟩

/-- A field definition that is read stands in the tokens that it is read from. -/
theorem follows_writtenIn (given : List Token) (fuel : ℕ) :
    Follows (endOf given) (fun f => f.WrittenIn given) (fieldDefinition fuel) := by
  intro ts hts f rest h
  refine ⟨?_, (walks_fieldDefinition fuel ts hts f rest h).2⟩
  obtain ⟨⟨described, left⟩, hdescription, hfield⟩ := bind_eq_ok.mp h
  obtain ⟨-, ⟨before, rfl⟩, hleft⟩ := walks_description ts hts described left hdescription
  obtain ⟨⟨key, behindKey⟩, hname, harguments⟩ := bind_eq_ok.mp hfield
  obtain ⟨t, rfl, ht, rfl, -⟩ := (name_eq_ok_iff hleft).mp hname
  have hended : Ended behindKey := (Ended.cons_iff (ht ▸ TokenKind.goesOn_name)).mp hleft
  obtain ⟨⟨inputs, behindArguments⟩, hread, hcolon⟩ := bind_eq_ok.mp harguments
  obtain ⟨arguments, rfl, hparenthesised⟩ :=
    exists_parenthesised (fun _ => walks_inputValue fuel) hended hread
  have hended' : Ended behindArguments :=
    (exists_append_of_walks (walks_inputs fuel _ _) hended hread).2
  obtain ⟨⟨⟨⟩, behindColon⟩, hmark, htype⟩ := bind_eq_ok.mp hcolon
  obtain ⟨colon, rfl, hkind, -⟩ := (expectMark_eq_ok_iff hended').mp hmark
  have hended'' : Ended behindColon := (Ended.cons_iff (hkind ▸ TokenKind.goesOn_punctuator _)).mp hended'
  obtain ⟨⟨type, behind⟩, hspell, hdirectives⟩ := bind_eq_ok.mp htype
  obtain ⟨used, rfl, hspells, -, hcomplete⟩ := spells_of_typeExpr hended'' hspell
  obtain ⟨⟨uses, last⟩, -, hdone⟩ := bind_eq_ok.mp hdirectives
  obtain ⟨rfl, -⟩ := Prod.mk.inj (Except.ok.inj hdone)
  exact .intro ht rfl hparenthesised hkind hspells hcomplete

/-- The fields of the type definitions of a schema text stand in its tokens. -/
theorem writtenIn_of_readDocument {text : String} {defs : List Definition} (h : readDocument text = .ok defs)
    {td : TypeDefinition} (htd : .type td ∈ defs) {f : FieldDefinition} (hf : f ∈ td.body.outputFields) :
    f.WrittenIn (tokens text) := by
  obtain ⟨-, left, hread⟩ := run_eq_ok_iff.mp h
  have hfollows := follows_definitions (.trivial (endOf (tokens text))) ((tokens text).length + 1)
    (follows_writtenIn (tokens text) _) ((tokens text).length + 1)
  have hhas := (hfollows _ ⟨List.suffix_refl _, ended_tokens text⟩ _ _ hread).1 _ htd
  exact TypeDefinition.Has.fields hhas f hf

end SchemaReconcile.Sdl
