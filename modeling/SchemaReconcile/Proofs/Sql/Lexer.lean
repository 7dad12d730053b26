import SchemaReconcile.Sql.Statement

/-!
# Tokens of a statement

A lexer for the part of the database's language that definition statements are written in: words, a few
symbols, identifiers between double quotes, string literals plain or with escapes, and bodies between dollar
signs.  It follows the rules of the database for these with standard conforming strings: a doubled quote
stands for one, a literal goes on after a line end, an escape literal follows the letter `E`, and a body
ends with the tag that it starts with.  Whatever else the language has is refused: numbers, operators,
comments, and bit, national and Unicode literals.  An identifier is given in full, also where the database
keeps only the beginning of it.

The lexer goes from one mode to the next with each character.  A quoted text is read back whatever it is
(`run_quoteIdentifier`, `run_quoteLiteral`).
-/

namespace SchemaReconcile.Sql

/-- A token of a statement. -/
inductive Token where
  | word (text : String)
  | symbol (c : Char)
  | identifier (name : String)
  | string (text : String)
  | body (text : String)
  deriving DecidableEq, Repr

/-! ## Characters -/

/-- Whether a character ends a line. -/
def isLineEnd (c : Char) : Bool := c == '\n' || c == '\r'

/-- Whether a character stands between tokens. -/
def isBlank (c : Char) : Bool := c == ' ' || c == '\t' || c == '\x0c' || isLineEnd c

/-- Whether a word or the tag of a body starts with a character. -/
def isWordStart (c : Char) : Bool := c.isAlpha || c == '_' || 128 ≤ c.toNat

/-- Whether a word goes on with a character. -/
def isWordPart (c : Char) : Bool := isWordStart c || c.isDigit || c == '$'

/-- Whether a character is a token of its own. -/
def isSymbol (c : Char) : Bool := c == '(' || c == ')' || c == '[' || c == ']' || c == ',' || c == ';'

/-- The character that a letter after a backslash stands for. -/
def escaped? : Char → Option Char
  | '\\' => some '\\'
  | 'b' => some '\x08'
  | 'f' => some '\x0c'
  | 'n' => some '\n'
  | 'r' => some '\r'
  | 't' => some '\t'
  | _ => none

/-! ## Modes -/

/-- Where the lexer is, with the characters of the token so far. -/
inductive Mode where
  | gap
  /-- After a point, which another point cannot follow. -/
  | dot
  | word (cs : List Char)
  | name (cs : List Char)
  /-- After a double quote that ends an identifier, or is the first of two. -/
  | nameQuote (cs : List Char)
  | text (escapes : Bool) (cs : List Char)
  /-- After a single quote that ends a literal, or is the first of two. -/
  | textQuote (escapes : Bool) (cs : List Char)
  /-- After blanks behind a literal, which goes on if there is a line end among them. -/
  | textGap (escapes : Bool) (cs : List Char) (line : Bool)
  /-- After a backslash in a literal with escapes. -/
  | escape (cs : List Char)
  | dollarTag (tag : List Char)
  | dollarBody (tag cs : List Char)
  /-- After a dollar sign in a body and some characters of the tag, with those that are left of it. -/
  | dollarEnd (cs seen left : List Char)
  deriving DecidableEq, Repr

namespace Mode

/-- A token starts with a character, or there is none. -/
def start (c : Char) : Option (List Token × Mode) :=
  if isBlank c then some ([], gap)
  else if isWordStart c then some ([], word [c])
  else if c = '"' then some ([], name [])
  else if c = '\'' then some ([], text false [])
  else if c = '$' then some ([], dollarTag [])
  else if c = '.' then some ([.symbol c], dot)
  else if isSymbol c then some ([.symbol c], gap)
  else none

/-- The token that is at its end, none in the middle of one.  An identifier cannot be empty. -/
def close : Mode → Option (List Token)
  | gap => some []
  | dot => some []
  | word cs => some [.word (String.ofList cs)]
  | nameQuote cs => if cs.isEmpty then none else some [.identifier (String.ofList cs)]
  | textQuote _ cs => some [.string (String.ofList cs)]
  | textGap _ cs _ => some [.string (String.ofList cs)]
  | _ => none

/-- A token ends before a character. -/
def leave (m : Mode) (c : Char) : Option (List Token × Mode) :=
  match m.close, start c with
  | some ts, some (us, m') => some (ts ++ us, m')
  | _, _ => none

/-- A single quote after a word: some letters lead special literals. -/
def quoteAfter (cs : List Char) : Option (List Token × Mode) :=
  if cs ∈ [['E'], ['e']] then some ([], text true [])
  else if cs ∈ [['B'], ['b'], ['N'], ['n'], ['X'], ['x']] then none
  else (word cs).leave '\''

/-- The tokens that end with a character, and the mode after it. -/
def step : Mode → Char → Option (List Token × Mode)
  | gap, c => leave gap c
  | dot, c => if c = '.' then none else leave dot c
  | word cs, c =>
    if isWordPart c then some ([], word (cs ++ [c]))
    else if c = '\'' then quoteAfter cs
    else leave (word cs) c
  | name cs, c => some ([], if c = '"' then nameQuote cs else name (cs ++ [c]))
  | nameQuote cs, c => if c = '"' then some ([], name (cs ++ [c])) else leave (nameQuote cs) c
  | text escapes cs, c =>
    some ([], if c = '\'' then textQuote escapes cs
      else if escapes && c == '\\' then escape cs
      else text escapes (cs ++ [c]))
  | textQuote escapes cs, c =>
    if c = '\'' then some ([], text escapes (cs ++ [c]))
    else if isBlank c then some ([], textGap escapes cs (isLineEnd c))
    else leave (textQuote escapes cs) c
  | textGap escapes cs line, c =>
    if isBlank c then some ([], textGap escapes cs (line || isLineEnd c))
    else if c = '\'' ∧ line then some ([], text escapes cs)
    else leave (textGap escapes cs line) c
  | escape cs, c => (escaped? c).map fun d => ([], text true (cs ++ [d]))
  | dollarTag tag, c =>
    if c = '$' then some ([], dollarBody tag [])
    else if isWordStart c || (c.isDigit && !tag.isEmpty) then some ([], dollarTag (tag ++ [c]))
    else none
  | dollarBody tag cs, c =>
    some ([], if c = '$' then dollarEnd cs [] tag else dollarBody tag (cs ++ [c]))
  | dollarEnd cs seen [], c =>
    if c = '$' then some ([.body (String.ofList cs)], gap)
    else some ([], dollarBody seen (cs ++ '$' :: seen ++ [c]))
  | dollarEnd cs seen (d :: left), c =>
    some ([], if c = d then dollarEnd cs (seen ++ [c]) left
      else if c = '$' then dollarEnd (cs ++ '$' :: seen) [] (seen ++ d :: left)
      else dollarBody (seen ++ d :: left) (cs ++ '$' :: seen ++ [c]))

/-- The tokens that end in a text, and the mode after it. -/
def run : Mode → List Char → Option (List Token × Mode)
  | m, [] => some ([], m)
  | m, c :: cs =>
    match m.step c with
    | none => none
    | some (ts, m') =>
      match run m' cs with
      | none => none
      | some (us, m'') => some (ts ++ us, m'')

end Mode

/-- The tokens of a text, none if it is not made of tokens. -/
def lex (text : String) : Option (List Token) :=
  match Mode.run .gap text.toList with
  | none => none
  | some (ts, m) => m.close.map (ts ++ ·)

/-- A comment with a doubled quote in a name, and with a backslash and a quote in its text. -/
example : lex "COMMENT ON COLUMN \"a\"\"b\".c IS  E'it''s \\\\n'" =
    some [.word "COMMENT", .word "ON", .word "COLUMN", .identifier "a\"b", .symbol '.', .word "c",
      .word "IS", .string "it's \\n"] := by
  decide

/-! ## Runs -/

namespace Mode

/-- A character at which no token ends only changes the mode. -/
theorem run_cons_of_step {m m' : Mode} {c : Char} (h : m.step c = some ([], m')) (cs : List Char) :
    run m (c :: cs) = run m' cs := by
  rw [run, h]
  dsimp only
  cases run m' cs <;> rfl

/-- One character is read, and then the others. -/
theorem run_cons {m m' m'' : Mode} {c : Char} {cs : List Char} {ts us : List Token}
    (hstep : m.step c = some (ts, m')) (hrest : run m' cs = some (us, m'')) :
    run m (c :: cs) = some (ts ++ us, m'') := by
  simp [run, hstep, hrest]

/-- What is read when there is a first character. -/
theorem exists_of_run_cons {m m'' : Mode} {c : Char} {cs : List Char} {ts : List Token}
    (h : run m (c :: cs) = some (ts, m'')) :
    ∃ first m' rest, m.step c = some (first, m') ∧ run m' cs = some (rest, m'') ∧
      ts = first ++ rest := by
  rw [run] at h
  split at h
  · cases h
  · next first m' hstep =>
    split at h
    · cases h
    · next rest last hrest =>
      obtain ⟨rfl, rfl⟩ := Prod.mk.inj (Option.some.inj h)
      exact ⟨first, m', rest, hstep, hrest, rfl⟩

/-- One text is read, and then another. -/
theorem run_append {m m' m'' : Mode} {xs ys : List Char} {ts us : List Token}
    (hxs : run m xs = some (ts, m')) (hys : run m' ys = some (us, m'')) :
    run m (xs ++ ys) = some (ts ++ us, m'') := by
  induction xs generalizing m ts with
  | nil =>
    obtain ⟨rfl, rfl⟩ := Prod.mk.inj (Option.some.inj hxs)
    exact hys
  | cons c xs ih =>
    obtain ⟨first, middle, rest, hstep, hrest, rfl⟩ := exists_of_run_cons hxs
    rw [List.append_assoc]
    exact run_cons hstep (ih hrest)

/-! ### Quoted texts -/

/-- A text that is written character by character is read back when each character is. -/
theorem run_flatMap (mode : List Char → Mode) (write : Char → List Char)
    (h : ∀ cs c, run (mode cs) (write c) = some ([], mode (cs ++ [c]))) (cs text : List Char) :
    run (mode cs) (text.flatMap write) = some ([], mode (cs ++ text)) := by
  induction text generalizing cs with
  | nil => rw [List.flatMap_nil, List.append_nil, run]
  | cons c rest ih =>
    have hrest := ih (cs ++ [c])
    rw [List.append_assoc, List.singleton_append] at hrest
    exact run_append (h cs c) hrest

/-- Each character is written once or twice. -/
theorem doubled_eq_flatMap (c : Char) (text : List Char) :
    doubled c text = text.flatMap fun d => if d = c then [d, d] else [d] := by
  induction text with
  | nil => rfl
  | cons d rest ih =>
    rw [doubled, List.flatMap_cons, ← ih]
    split <;> rfl

/-- An identifier goes on over characters with each double quote twice. -/
theorem run_name_doubled (name : List Char) :
    run (.name []) (doubled '"' name) = some ([], .name name) := by
  rw [doubled_eq_flatMap]
  refine run_flatMap Mode.name _ (fun cs c => ?_) [] name
  split
  · next hc =>
    subst hc
    rfl
  · next hc => simp [run, step, hc]

/-- A plain literal goes on over characters with each single quote twice. -/
theorem run_text_doubled (text : List Char) :
    run (.text false []) (doubled '\'' text) = some ([], .text false text) := by
  rw [doubled_eq_flatMap]
  refine run_flatMap (Mode.text false) _ (fun cs c => ?_) [] text
  split
  · next hc =>
    subst hc
    rfl
  · next hc => simp [run, step, hc]

/-- A literal with escapes goes on over characters with each single quote and then each backslash twice. -/
theorem run_escapes_doubled (text : List Char) :
    run (.text true []) (doubled '\\' (doubled '\'' text)) = some ([], .text true text) := by
  rw [doubled_eq_flatMap, doubled_eq_flatMap, List.flatMap_assoc]
  refine run_flatMap (Mode.text true) _ (fun cs c => ?_) [] text
  by_cases hquote : c = '\''
  · subst hquote
    rfl
  · by_cases hescape : c = '\\'
    · subst hescape
      rfl
    · simp [run, step, hquote, hescape]

/-- An identifier between double quotes is read up to the last of them, whatever it is. -/
theorem run_quoteIdentifier (name : String) :
    run .gap (quoteIdentifier name).toList = some ([], .nameQuote name.toList) := by
  rw [quoteIdentifier, String.toList_ofList, List.cons_append, run_cons_of_step rfl]
  exact run_append (run_name_doubled name.toList) rfl

/-- A literal is read up to its last single quote, whatever it is. -/
theorem run_quoteLiteral (text : String) :
    ∃ escapes, run .gap (quoteLiteral text).toList = some ([], .textQuote escapes text.toList) := by
  unfold quoteLiteral
  dsimp only
  split
  · refine ⟨true, ?_⟩
    rw [String.toList_ofList, List.cons_append, List.cons_append, List.cons_append,
      run_cons_of_step rfl, run_cons_of_step rfl, run_cons_of_step rfl]
    exact run_append (run_escapes_doubled text.toList) rfl
  · refine ⟨false, ?_⟩
    rw [String.toList_ofList, List.cons_append, run_cons_of_step rfl]
    exact run_append (run_text_doubled text.toList) rfl

end Mode

end SchemaReconcile.Sql
