import SchemaReconcile.Proofs.Results
import SchemaReconcile.Sdl.Reader
import SchemaReconcile.Sdl.Rules

/-!
# What readers keep

A reader only goes on along the tokens that it was given.  So a property of the tokens that are left stays when it
stays with each token that is consumed (`TokenInvariant`), and what is read has the properties that its tokens give
it.  `Follows` says this of one reader, and is put together along the way in which readers are: `Follows.bind` for a
sequence, `follows_itemsUntil` for a list, an induction on the fuel for each recursive reader.  Of the readers whose
results nothing is asked of, only `Walks` is needed.

What is asked of a document is a property of the literals in the directive uses of types (`LiteralTrait`) and one
of the definitions of fields; the result is about the definitions of a whole document (`follows_definitions`).
-/

namespace SchemaReconcile.Sdl

variable {α β : Type} {P : α → Prop} {Q : β → Prop}

/-! ## Readers -/

/-- A property of the tokens that are left, which stays when one in front of others is consumed. -/
structure TokenInvariant where
  Holds : List Token → Prop
  tail : ∀ {t u : Token} {rest : List Token}, Holds (t :: u :: rest) → Holds (u :: rest)

/-- A reader keeps a property of the tokens that are left, and what it returns has a property. -/
def Follows (I : TokenInvariant) (P : α → Prop) (r : Reading α) : Prop :=
  ∀ ts, I.Holds ts → ∀ a ts', r ts = .ok (a, ts') → P a ∧ I.Holds ts'

/-- A reader keeps a property of the tokens that are left. -/
abbrev Walks (I : TokenInvariant) (r : Reading α) : Prop := Follows I (fun _ => True) r

variable {I : TokenInvariant}

namespace Follows

/-- A result without reading. -/
theorem pure {a : α} (h : P a) : Follows I P (Pure.pure a : Reading α) := by
  rintro ts hts _ _ ⟨⟩
  exact ⟨h, hts⟩

/-- A reader that stops returns nothing. -/
theorem throw (n : Nat) : Follows I P (MonadExcept.throw n : Reading α) := by
  rintro ts hts _ _ ⟨⟩

/-- Two readers in sequence. -/
theorem bind {x : Reading α} {f : α → Reading β} (hx : Follows I P x) (hf : ∀ a, P a → Follows I Q (f a)) :
    Follows I Q (x >>= f) := by
  intro ts hts b ts' h
  obtain ⟨⟨a, left⟩, hread, h⟩ := bind_eq_ok.mp h
  obtain ⟨ha, hleft⟩ := hx ts hts a left hread
  exact hf a ha left hleft b ts' h

/-- A reader with a weaker property. -/
theorem imp {P' : α → Prop} {r : Reading α} (h : Follows I P r) (hP : ∀ a, P a → P' a) : Follows I P' r :=
  fun ts hts a ts' hread => (h ts hts a ts' hread).imp_left (hP a)

/-- A function of what a reader returns. -/
theorem map {x : Reading α} {f : α → β} (hx : Follows I P x) (hf : ∀ a, P a → Q (f a)) :
    Follows I Q (f <$> x) := by
  rw [← bind_pure_comp]
  exact bind hx fun a ha => pure (hf a ha)

/-- One of two readers. -/
theorem ite {c : Prop} [Decidable c] {x y : Reading α} (hx : Follows I P x) (hy : Follows I P y) :
    Follows I P (if c then x else y) := by
  split
  · exact hx
  · exact hy

/-- A result without reading that nothing is said about. -/
theorem done (a : α) : Walks I (Pure.pure a : Reading α) := pure trivial

/-- Nothing is read behind a reader that stops. -/
theorem stopped {x : Reading α} (hx : Follows I (fun _ => False) x) (f : α → Reading β) :
    Follows I Q (x >>= f) :=
  bind hx fun _ h => h.elim

/-- A function of what a reader returns, which nothing is said about. -/
theorem walks {x : Reading α} {f : α → β} (hx : Follows I P x) : Walks I (f <$> x) :=
  map hx fun _ _ => trivial

/-- A reader whose result is not needed. -/
theorem discard {x : Reading α} (hx : Follows I P x) : Walks I (Functor.discard x) := walks hx

/-- The tokens that are left. -/
theorem get : Follows I I.Holds (MonadState.get : Reading (List Token)) := by
  rintro ts hts _ _ ⟨⟩
  exact ⟨hts, hts⟩

/-- Other tokens, of which the property holds as well. -/
theorem set {left : List Token} (h : I.Holds left) :
    Walks I (MonadStateOf.set left : Reading Unit) := by
  rintro ts hts _ _ ⟨⟩
  exact ⟨trivial, h⟩

end Follows

/-! ## Single tokens -/

namespace Reading

/-- The current token is the first of those that are left. -/
theorem follows_current : Follows I (fun t => ∃ rest, I.Holds (t :: rest)) current := by
  refine .bind .get fun ts hts => ?_
  split
  · exact .pure ⟨_, hts⟩
  · exact .throw 0

theorem follows_failAt (t : Token) : Follows I P (failAt t) := .throw _

theorem follows_unexpected : Follows I P unexpected := .bind follows_current fun t _ => follows_failAt t

theorem walks_following : Walks I following := by
  refine .bind .get fun ts hts => ?_
  split
  · exact .ite (follows_failAt _) (.pure trivial)
  · exact .pure trivial
  · exact .throw 0

theorem walks_advance : Walks I advance := by
  refine .bind .get fun ts hts => ?_
  split
  · exact .ite (follows_failAt _) (.set (I.tail hts))
  · exact .pure trivial

theorem walks_at (kind : TokenKind) : Walks I (at? kind) :=
  .bind follows_current fun _ _ => .pure trivial

theorem walks_expect (kind : TokenKind) : Walks I (expect kind) :=
  .bind follows_current fun t _ => .ite (.bind walks_advance fun _ _ => .pure trivial) (follows_failAt t)

theorem walks_expectMark (c : Char) : Walks I (expectMark c) := .discard (walks_expect _)

theorem walks_skipMark (c : Char) : Walks I (skipMark c) :=
  .bind (walks_at _) fun _ _ => .ite (.bind walks_advance fun _ _ => .pure trivial) (.pure trivial)

theorem walks_atKeyword (word : String) : Walks I (atKeyword? word) :=
  .bind follows_current fun _ _ => .pure trivial

theorem walks_skipKeyword (word : String) : Walks I (skipKeyword word) :=
  .bind (walks_atKeyword word) fun _ _ =>
    .ite (.bind walks_advance fun _ _ => .pure trivial) (.pure trivial)

theorem walks_expectKeyword (word : String) : Walks I (expectKeyword word) :=
  .bind (walks_skipKeyword word) fun _ _ => .ite (.pure trivial) follows_unexpected

theorem walks_name : Walks I name := .bind (walks_expect _) fun _ _ => .pure trivial

/-! ## Lists -/

variable {item : Reading α}

/-- Items up to a closing punctuator have the property of each. -/
theorem follows_itemsUntil (h : Follows I P item) (close : Char) (fuel : ℕ) :
    Follows I (fun items => ∀ a ∈ items, P a) (itemsUntil close item fuel) := by
  induction fuel with
  | zero => exact follows_unexpected
  | succ fuel ih =>
    refine .bind (walks_skipMark close) fun _ _ => .ite (.pure (by simp)) ?_
    exact .bind h fun _ hfirst => .bind ih fun _ hrest =>
      .pure (List.forall_mem_cons.mpr ⟨hfirst, hrest⟩)

theorem follows_many (h : Follows I P item) (opening closing : Char) (fuel : ℕ) :
    Follows I (fun items => ∀ a ∈ items, P a) (many opening closing item fuel) :=
  .bind (walks_expectMark opening) fun _ _ => .bind h fun _ hfirst =>
    .bind (follows_itemsUntil h closing fuel) fun _ hrest =>
      .pure (List.forall_mem_cons.mpr ⟨hfirst, hrest⟩)

theorem follows_optionalMany (h : Follows I P item) (opening closing : Char) (fuel : ℕ) :
    Follows I (fun items => ∀ a ∈ items, P a) (optionalMany opening closing item fuel) :=
  .bind (walks_at _) fun _ _ => .ite (follows_many h opening closing fuel) (.pure (by simp))

theorem follows_separated (h : Follows I P item) (mark : Char) (fuel : ℕ) :
    Follows I (fun items => ∀ a ∈ items, P a) (separated mark item fuel) := by
  induction fuel with
  | zero => exact follows_unexpected
  | succ fuel ih =>
    refine .bind h fun _ hfirst => .bind (walks_skipMark mark) fun _ _ => .ite ?_ ?_
    · exact .bind ih fun _ hrest => .pure (List.forall_mem_cons.mpr ⟨hfirst, hrest⟩)
    · exact .pure (List.forall_mem_singleton.mpr hfirst)

theorem follows_delimited (h : Follows I P item) (mark : Char) (fuel : ℕ) :
    Follows I (fun items => ∀ a ∈ items, P a) (delimited mark item fuel) :=
  .bind (.discard (walks_skipMark mark)) fun _ _ => follows_separated h mark fuel

end Reading

open Reading

/-! ## Literals and directives -/

theorem walks_typeExpr (fuel : ℕ) : Walks I (typeExpr fuel) := by
  induction fuel with
  | zero => exact follows_unexpected
  | succ fuel ih =>
    have hmark : ∀ inner, Walks I (do
        if ← skipMark '!' then return TypeExpr.nonNull inner else return inner) := fun inner =>
      .bind (walks_skipMark _) fun _ _ => .ite (.pure trivial) (.pure trivial)
    refine .bind (walks_skipMark _) fun _ _ => .ite ?_ ?_
    · refine .bind ih fun item _ => .bind (walks_expectMark _) fun _ _ => ?_
      exact .bind (.done _) fun inner _ => hmark inner
    · exact .bind walks_name.walks fun inner _ => hmark inner

/-- A literal holds neither an integer nor other literals. -/
def Literal.isPlain : Literal → Bool
  | .int _ | .list _ | .object _ => false
  | _ => true

/-- A property that a literal has when those inside have it, and an integer when it is a token. -/
structure LiteralTrait (I : TokenInvariant) (L : Literal → Prop) : Prop where
  int : ∀ {t : Token} {rest : List Token}, I.Holds (t :: rest) → t.kind = .int → L (.int t.text)
  list : ∀ {items : List Literal}, (∀ l ∈ items, L l) → L (.list items)
  object : ∀ {fields : List (String × Literal)}, (∀ p ∈ fields, L p.2) → L (.object fields)
  plain : ∀ {l : Literal}, l.isPlain = true → L l

variable {L : Literal → Prop}

/-- A name with a literal behind a colon. -/
theorem follows_field {value : Reading Literal} (h : Follows I L value) :
    Follows I (fun p : String × Literal => L p.2) (do
      let key ← name
      expectMark ':'
      let value ← value
      return (key, value)) :=
  .bind walks_name fun _ _ => .bind (walks_expectMark _) fun _ _ => .bind h fun _ hvalue => .pure hvalue

/-- A literal that is read has the property of its tokens. -/
theorem follows_literal (hL : LiteralTrait I L) (constant : Bool) (fuel : ℕ) :
    Follows I L (literal constant fuel) := by
  induction fuel with
  | zero => exact follows_unexpected
  | succ fuel ih =>
    refine .bind follows_current fun t ht => ?_
    obtain ⟨rest, hholds⟩ := ht
    split
    · exact .bind walks_advance fun _ _ => .bind (follows_itemsUntil ih _ fuel) fun _ hitems =>
        .pure (hL.list hitems)
    · exact .bind walks_advance fun _ _ => .bind (follows_itemsUntil (follows_field ih) _ fuel) fun _ hfields =>
        .pure (hL.object hfields)
    · next hkind => exact .bind walks_advance fun _ _ => .pure (hL.int hholds hkind)
    · exact .bind walks_advance fun _ _ => .pure (hL.plain rfl)
    · exact .bind walks_advance fun _ _ => .pure (hL.plain rfl)
    · refine .bind walks_advance fun _ _ => .ite (.pure (hL.plain rfl)) (.ite (.pure (hL.plain rfl)) ?_)
      exact .ite (.pure (hL.plain rfl)) (.pure (hL.plain rfl))
    · refine .bind walks_advance fun _ _ => .ite ?_ ?_
      · exact .bind (walks_at _) fun _ _ => .ite (follows_failAt _) follows_unexpected
      · exact .bind walks_name fun _ _ => .pure (hL.plain rfl)
    · exact follows_failAt t

theorem follows_arguments (hL : LiteralTrait I L) (constant : Bool) (fuel : ℕ) :
    Follows I (fun given : List (String × Literal) => ∀ p ∈ given, L p.2) (arguments constant fuel) :=
  follows_optionalMany (follows_field (follows_literal hL constant fuel)) _ _ fuel

/-- The literals in directive uses that are read have the property of their tokens. -/
theorem follows_directiveUses (hL : LiteralTrait I L) (constant : Bool) (fuel steps : ℕ) :
    Follows I (fun uses => ∀ u ∈ uses, ∀ p ∈ u.arguments, L p.2) (directiveUses constant fuel steps) := by
  induction steps with
  | zero => exact follows_unexpected
  | succ steps ih =>
    refine .bind (walks_skipMark _) fun _ _ => .ite ?_ (.pure (by simp))
    exact .bind walks_name fun _ _ => .bind (follows_arguments hL constant fuel) fun _ hgiven =>
      .bind ih fun _ hrest => .pure (List.forall_mem_cons.mpr ⟨hgiven, hrest⟩)

/-- Nothing is asked of literals. -/
theorem LiteralTrait.trivial (I : TokenInvariant) : LiteralTrait I fun _ => True :=
  ⟨fun _ _ => True.intro, fun _ => True.intro, fun _ => True.intro, fun _ => True.intro⟩

theorem walks_literal (constant : Bool) (fuel : ℕ) : Walks I (literal constant fuel) :=
  follows_literal (.trivial I) constant fuel

theorem walks_arguments (constant : Bool) (fuel : ℕ) : Walks I (arguments constant fuel) :=
  (follows_arguments (.trivial I) constant fuel).imp fun _ _ => True.intro

theorem walks_directiveUses (constant : Bool) (fuel steps : ℕ) : Walks I (directiveUses constant fuel steps) :=
  (follows_directiveUses (.trivial I) constant fuel steps).imp fun _ _ => True.intro

theorem walks_description : Walks I description :=
  .bind follows_current fun _ _ => .ite (.bind walks_advance fun _ _ => .pure trivial) (.pure trivial)

/-! ## Definitions of types -/

/-- What stands behind the name of an argument, an input field or a variable. -/
theorem walks_declared (fuel : ℕ) (key : String) : Walks I (do
    expectMark ':'
    let type ← typeExpr fuel
    let default ← if ← skipMark '=' then some <$> literal true fuel else pure none
    let directives ← directiveUses true fuel fuel
    return InputValue.mk key type default directives) := by
  have hdirectives : ∀ (type : TypeExpr) (default : Option Literal), Walks I (do
      let directives ← directiveUses true fuel fuel
      return InputValue.mk key type default directives) := fun _ _ =>
    .bind (walks_directiveUses true fuel fuel) fun _ _ => .done _
  refine .bind (walks_expectMark _) fun _ _ => .bind (walks_typeExpr fuel) fun _ _ => ?_
  refine .bind (walks_skipMark _) fun _ _ => .ite ?_ (.bind (.done _) fun _ _ => hdirectives _ _)
  exact .bind (walks_literal true fuel).walks fun _ _ => hdirectives _ _

theorem walks_inputValue (fuel : ℕ) : Walks I (inputValue fuel) :=
  .bind (.discard walks_description) fun _ _ => .bind walks_name fun key _ => walks_declared fuel key

theorem walks_inputs (fuel : ℕ) (opening closing : Char) :
    Walks I (optionalMany opening closing (inputValue fuel) fuel) :=
  (follows_optionalMany (walks_inputValue fuel) _ _ fuel).imp fun _ _ => trivial

/-- The literals in the directive uses of a field that is read have the property of their tokens. -/
theorem follows_fieldDefinition (hL : LiteralTrait I L) (fuel : ℕ) :
    Follows I (fun f => ∀ u ∈ f.directives, ∀ p ∈ u.arguments, L p.2) (fieldDefinition fuel) :=
  .bind walks_description fun _ _ => .bind walks_name fun _ _ =>
    .bind (walks_inputs fuel _ _) fun _ _ => .bind (walks_expectMark _) fun _ _ =>
      .bind (walks_typeExpr fuel) fun _ _ => .bind (follows_directiveUses hL true fuel fuel) fun _ huses =>
        .pure huses

theorem walks_fieldDefinition (fuel : ℕ) : Walks I (fieldDefinition fuel) :=
  (follows_fieldDefinition (.trivial I) fuel).imp fun _ _ => True.intro

theorem walks_enumValue (fuel : ℕ) : Walks I (enumValue fuel) := by
  have hkey : Walks I (do
      let key ← name
      let directives ← directiveUses true fuel fuel
      return EnumValue.mk key directives) :=
    .bind walks_name fun _ _ => .bind (walks_directiveUses true fuel fuel) fun _ _ => .done _
  exact .bind (.discard walks_description) fun _ _ => .bind follows_current fun _ _ =>
    .ite (.stopped (follows_failAt _) _) hkey

theorem walks_interfaces (fuel : ℕ) : Walks I (interfaces fuel) :=
  .bind (walks_skipKeyword _) fun _ _ =>
    .ite ((follows_delimited walks_name _ fuel).imp fun _ _ => trivial) (.done _)

theorem walks_operationKind : Walks I operationKind := by
  refine .bind (walks_expect _) fun t _ => ?_
  split
  · exact .done _
  · exact follows_failAt t

theorem walks_operationType : Walks I operationType :=
  .bind walks_operationKind fun _ _ => .bind (walks_expectMark _) fun _ _ =>
    .bind walks_name fun _ _ => .done _

/-- The literals in the directive uses of a type definition have a property, and its fields have another one. -/
structure TypeDefinition.Has (L : Literal → Prop) (F : FieldDefinition → Prop) (t : TypeDefinition) : Prop where
  own : ∀ u ∈ t.directives, ∀ p ∈ u.arguments, L p.2
  fields : ∀ f ∈ t.body.outputFields, F f

/-- A definition that is one of a type has the properties of such a definition. -/
def Definition.Has (L : Literal → Prop) (F : FieldDefinition → Prop) : Definition → Prop
  | .type t => t.Has L F
  | _ => True

variable {F : FieldDefinition → Prop}

/-- A type definition that is read has the properties of its tokens. -/
theorem follows_typeDefinition (hL : LiteralTrait I L) (fuel : ℕ)
    (hF : Follows I F (fieldDefinition fuel)) (text : Option String) :
    Follows I (TypeDefinition.Has L F) (typeDefinition fuel text) := by
  have huses := follows_directiveUses hL true fuel fuel
  have hfields := follows_optionalMany hF '\x7b' '\x7d' fuel
  refine .bind walks_name fun keyword _ => .bind walks_name fun key _ => ?_
  split
  · exact .bind (walks_interfaces fuel) fun _ _ => .bind huses fun _ hown =>
      .bind hfields fun _ hinner => .pure ⟨hown, hinner⟩
  · exact .bind (walks_interfaces fuel) fun _ _ => .bind huses fun _ hown =>
      .bind hfields fun _ hinner => .pure ⟨hown, hinner⟩
  · refine .bind huses fun _ hown => .bind (walks_skipMark _) fun _ _ => .ite ?_ ?_
    · exact .bind (follows_delimited walks_name _ fuel) fun _ _ => .pure ⟨hown, by simp [TypeBody.outputFields]⟩
    · exact .bind (.done _) fun _ _ => .pure ⟨hown, by simp [TypeBody.outputFields]⟩
  · exact .bind huses fun _ hown => .bind (follows_optionalMany (walks_enumValue fuel) _ _ fuel) fun _ _ =>
      .pure ⟨hown, by simp [TypeBody.outputFields]⟩
  · exact .bind huses fun _ hown => .bind (walks_inputs fuel _ _) fun _ _ =>
      .pure ⟨hown, by simp [TypeBody.outputFields]⟩
  · exact .bind huses fun _ hown => .pure ⟨hown, by simp [TypeBody.outputFields]⟩

theorem walks_typeDefinition (fuel : ℕ) (text : Option String) : Walks I (typeDefinition fuel text) :=
  (follows_typeDefinition (.trivial I) fuel (walks_fieldDefinition fuel) text).imp fun _ _ => True.intro

theorem walks_directiveDefinition (fuel : ℕ) : Walks I (directiveDefinition fuel) := by
  have hlocation : Walks I directiveLocation :=
    .bind follows_current fun t _ => .bind walks_name fun _ _ => .ite (.done _) (follows_failAt t)
  exact .bind (walks_expectKeyword _) fun _ _ => .bind (walks_expectMark _) fun _ _ =>
    .bind walks_name fun _ _ => .bind (walks_inputs fuel _ _) fun _ _ =>
      .bind (walks_skipKeyword _) fun _ _ => .bind (walks_expectKeyword _) fun _ _ =>
        .bind (follows_delimited hlocation _ fuel) fun _ _ => .done _

/-! ## Operations -/

theorem walks_fragmentName : Walks I fragmentName :=
  .bind follows_current fun _ _ => .ite (.stopped (follows_failAt _) _) walks_name

theorem walks_selections (fuel : ℕ) : Walks I (selections fuel) := by
  induction fuel with
  | zero => exact follows_unexpected
  | succ fuel ih =>
    have huses : Walks I (directiveUses false fuel fuel) := walks_directiveUses false fuel fuel
    have hinline : ∀ onType, Walks I (do
        let directives ← directiveUses false fuel fuel
        let inner ← selections fuel
        return Selection.inline onType directives inner) := fun _ =>
      .bind huses fun _ _ => .bind ih fun _ _ => .done _
    have hfield : Walks I (do
        let given ← arguments false fuel
        let directives ← directiveUses false fuel fuel
        let inner ← if ← atMark? '\x7b' then selections fuel else pure []
        return Selection.field given directives inner) :=
      .bind (walks_arguments false fuel) fun _ _ => .bind huses fun _ _ => .bind (walks_at _) fun _ _ =>
        .ite (.bind ih fun _ _ => .done _) (.bind (.done _) fun _ _ => .done _)
    have hselection : Walks I (do
        if ← at? .spread then
          advance
          let typed ← skipKeyword "on"
          let named ← at? .name
          if !typed && named then
            discard fragmentName
            return .spread (← directiveUses false fuel fuel)
          else
            let onType ← if typed then some <$> name else pure none
            let directives ← directiveUses false fuel fuel
            let inner ← selections fuel
            return .inline onType directives inner
        else
          discard name
          if ← skipMark ':' then discard name
          let given ← arguments false fuel
          let directives ← directiveUses false fuel fuel
          let inner ← if ← atMark? '\x7b' then selections fuel else pure []
          return Selection.field given directives inner) := by
      refine .bind (walks_at _) fun _ _ => .ite ?_ ?_
      · refine .bind walks_advance fun _ _ => .bind (walks_skipKeyword _) fun _ _ =>
          .bind (walks_at _) fun _ _ => .ite ?_ (.ite ?_ ?_)
        · exact .bind (.discard walks_fragmentName) fun _ _ => .bind huses fun _ _ => .done _
        · exact .bind walks_name.walks fun _ _ => hinline _
        · exact .bind (.done _) fun _ _ => hinline _
      · refine .bind (.discard walks_name) fun _ _ => .bind (walks_skipMark _) fun _ _ => .ite ?_ hfield
        exact .bind (.discard walks_name) fun _ _ => hfield
    exact .bind (walks_expectMark _) fun _ _ =>
      (follows_itemsUntil hselection _ fuel).imp fun _ _ => trivial

theorem walks_variableDefinition (fuel : ℕ) : Walks I (variableDefinition fuel) :=
  .bind (.discard walks_description) fun _ _ => .bind (walks_expectMark _) fun _ _ =>
    .bind walks_name fun key _ => walks_declared fuel key

/-- A definition that is read as an operation or a fragment has nothing that a document takes. -/
theorem follows_operationDefinition (fuel : ℕ) : Follows I (Definition.Has L F) (operationDefinition fuel) := by
  have hrest : ∀ kind, Follows I (Definition.Has L F) (do
      let declared ← optionalMany '(' ')' (variableDefinition fuel) fuel
      let directives ← directiveUses false fuel fuel
      let selected ← selections fuel
      return Definition.operation kind declared directives selected) := fun _ =>
    .bind (follows_optionalMany (walks_variableDefinition fuel) _ _ fuel) fun _ _ =>
      .bind (walks_directiveUses false fuel fuel) fun _ _ => .bind (walks_selections fuel) fun _ _ =>
        .pure trivial
  exact .bind walks_operationKind fun _ _ => .bind (walks_at _) fun _ _ =>
    .ite (.bind (.discard walks_name) fun _ _ => hrest _) (hrest _)

theorem follows_fragmentDefinition (fuel : ℕ) : Follows I (Definition.Has L F) (fragmentDefinition fuel) :=
  .bind (walks_expectKeyword _) fun _ _ => .bind (.discard walks_fragmentName) fun _ _ =>
    .bind (walks_expectKeyword _) fun _ _ => .bind walks_name fun _ _ =>
      .bind (walks_directiveUses false fuel fuel) fun _ _ => .bind (walks_selections fuel) fun _ _ =>
        .pure trivial

/-! ## Documents -/

theorem follows_extension (fuel : ℕ) : Follows I (Definition.Has L F) (extension fuel) := by
  refine .bind walks_following fun keyword _ => .ite ?_ (.ite ?_ (follows_failAt _))
  · refine .bind (walks_expectKeyword _) fun _ _ => .bind (walks_expectKeyword _) fun _ _ => ?_
    refine .bind (walks_directiveUses true fuel fuel) fun _ _ => ?_
    refine .bind (follows_optionalMany walks_operationType _ _ fuel) fun _ _ => ?_
    exact .ite (.stopped follows_unexpected _) (.pure trivial)
  · refine .bind (walks_expectKeyword _) fun _ _ => .bind (walks_typeDefinition fuel none) fun _ _ => ?_
    exact .ite (.stopped follows_unexpected _) (.pure trivial)

theorem follows_definition (hL : LiteralTrait I L) (fuel : ℕ) (hF : Follows I F (fieldDefinition fuel)) :
    Follows I (Definition.Has L F) (definition fuel) := by
  refine .bind follows_current fun first _ => .ite ?_ ?_
  · exact .bind (walks_selections fuel) fun _ _ => .pure trivial
  · extract_lets described body
    have hbody : ∀ keyword, Follows I (Definition.Has L F) (body keyword) := by
      intro keyword
      refine .ite (.stopped (follows_failAt _) _) (.ite (.stopped (follows_failAt _) _) ?_)
      refine .ite ?_ (.ite ?_ (.ite ?_ (.ite ?_ (.ite ?_ ?_))))
      · refine .bind (.discard walks_description) fun _ _ => .bind (walks_expectKeyword _) fun _ _ => ?_
        exact .bind (walks_directiveUses true fuel fuel) fun _ _ =>
          .bind (follows_many walks_operationType _ _ fuel) fun _ _ => .pure trivial
      · exact .bind walks_description fun text _ =>
          .bind (follows_typeDefinition hL fuel hF text) fun _ ht => .pure ht
      · exact .bind (.discard walks_description) fun _ _ =>
          .bind (walks_directiveDefinition fuel) fun _ _ => .pure trivial
      · exact .bind (.discard walks_description) fun _ _ => follows_operationDefinition fuel
      · exact .bind (.discard walks_description) fun _ _ => follows_fragmentDefinition fuel
      · exact .ite (follows_failAt _) (.ite (follows_extension fuel) (follows_failAt _))
    exact .ite (.bind walks_following fun _ _ => hbody _) (.bind (.done _) fun _ _ => hbody _)

/-- The definitions that are read have the properties of their tokens. -/
theorem follows_definitions (hL : LiteralTrait I L) (fuel : ℕ) (hF : Follows I F (fieldDefinition fuel))
    (steps : ℕ) :
    Follows I (fun defs => ∀ d ∈ defs, d.Has L F) (definitions fuel steps) := by
  induction steps with
  | zero => exact follows_unexpected
  | succ steps ih =>
    refine .bind (follows_definition hL fuel hF) fun _ hfirst => .bind (walks_at _) fun _ _ => .ite ?_ ?_
    · exact .pure (List.forall_mem_singleton.mpr hfirst)
    · exact .bind ih fun _ hrest => .pure (List.forall_mem_cons.mpr ⟨hfirst, hrest⟩)


end SchemaReconcile.Sdl
