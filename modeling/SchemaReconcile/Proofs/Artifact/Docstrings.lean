import Mathlib.Data.List.Basic
import SchemaReconcile.Artifact.Manifest
import SchemaReconcile.Proofs.Artifact.Order
import SchemaReconcile.Proofs.Results

/-!
# Descriptions inside triple quotes

A description is written between three double quotes, with three double quotes in a row replaced.  A reader
of the literal goes from the opening quotes to the first three quotes that no backslash escapes.  Since the
written text holds no three quotes in a row, the reader cannot stop inside it; what decides is the end of
the text, where it meets the closing quotes.  A quote there that is not escaped closes the literal early,
and a backslash there that is not escaped takes the first closing quote with it, so that the reader goes on
into the lines below.  In every other case the literal is exactly the written text.
-/

namespace SchemaReconcile.Artifact

/-- Three double quotes. -/
def quotes : List Char := ['"', '"', '"']

/-- Reads a literal behind its opening quotes: the characters up to the closing quotes as they are written,
and what comes after them. -/
def readLiteral : List Char → Option (List Char × List Char)
  | '"' :: '"' :: '"' :: rest => some ([], rest)
  | '\\' :: c :: rest => (readLiteral rest).map fun (body, after) => ('\\' :: c :: body, after)
  | c :: rest => (readLiteral rest).map fun (body, after) => (c :: body, after)
  | [] => none

/-- Whether a text ends in a character that no backslash escapes. -/
def endsBare (c : Char) (text : List Char) : Bool :=
  match text.reverse with
  | [] => false
  | last :: front => last == c && (front.takeWhile (· == '\\')).length % 2 == 0

/-! ## Ends of texts -/

section Ends

variable {c d : Char} {text : List Char}

/-- The empty text has no last character. -/
theorem endsBare_nil : endsBare c [] = false := rfl

/-- A text of one character ends in it. -/
theorem endsBare_singleton : endsBare c [d] = (d == c) := by simp [endsBare]

/-- The run of backslashes before the last character does not go past another character. -/
theorem takeWhile_append_bare (front more : List Char) (hd : d ≠ '\\') :
    (front ++ d :: more).takeWhile (· == '\\') = front.takeWhile (· == '\\') := by
  rw [List.takeWhile_append]
  split
  case isTrue h =>
    rw [List.takeWhile_cons_of_neg (by simpa using hd), List.append_nil]
    exact ((List.takeWhile_sublist _).eq_of_length h).symm
  case isFalse => rfl

/-- A first character that is no backslash changes nothing about the end of what follows it. -/
theorem endsBare_cons (hd : d ≠ '\\') (ht : text ≠ []) : endsBare c (d :: text) = endsBare c text := by
  obtain ⟨last, front, hr⟩ := List.exists_cons_of_ne_nil (List.reverse_ne_nil_iff.mpr ht)
  simp only [endsBare, List.reverse_cons, hr, List.cons_append, takeWhile_append_bare front [] hd]

/-- A backslash takes the character after it with it. -/
theorem endsBare_escape : endsBare c ('\\' :: d :: text) = endsBare c text := by
  rcases eq_or_ne text [] with rfl | ht
  · simp [endsBare]
  · obtain ⟨last, front, hr⟩ := List.exists_cons_of_ne_nil (List.reverse_ne_nil_iff.mpr ht)
    simp only [endsBare, List.reverse_cons, hr, List.cons_append, List.append_assoc, List.nil_append]
    by_cases hd : d = '\\'
    · -- Two backslashes are added to a run that reaches the head, which keeps it odd or even.
      subst hd
      rw [List.takeWhile_append]
      split
      case isTrue h => simp [← h]
      case isFalse => rfl
    · rw [takeWhile_append_bare front _ hd]

end Ends

/-! ## The replacement -/

/-- Only a quote is written with a quote in front. -/
theorem docCharacters_eq_cons {text more : List Char} (h : docCharacters text = '"' :: more) :
    ∃ rest, text = '"' :: rest ∧ docCharacters rest = more := by
  unfold docCharacters at h
  split at h
  case h_1 => simp at h
  case h_2 c rest _ =>
    obtain ⟨rfl, rfl⟩ := List.cons.inj h
    exact ⟨rest, rfl, rfl⟩
  case h_3 => simp at h

/-- A written description holds no three double quotes in a row. -/
theorem quotes_not_infix_docCharacters (text : List Char) : ¬ quotes <:+: docCharacters text := by
  induction text using docCharacters.induct with
  | case1 rest ih => simpa [docCharacters, quotes, List.infix_cons_iff] using ih
  | case2 c rest hc ih =>
    rw [docCharacters.eq_2 _ _ hc, List.infix_cons_iff]
    rintro (⟨more, hm⟩ | hi)
    · -- The two quotes behind a first one were there before the replacement, which would have taken all three.
      obtain ⟨rfl, hrest⟩ := List.cons.inj hm
      obtain ⟨rest₁, rfl, hrest₁⟩ := docCharacters_eq_cons hrest.symm
      obtain ⟨rest₂, rfl, -⟩ := docCharacters_eq_cons hrest₁
      exact hc rest₂ rfl rfl
    · exact ih hi
  | case3 => simp [docCharacters, quotes]

/-! ## Where a literal ends -/

section Scan

variable {text after : List Char} {c : Char}

/-- The reader passes over a character that is no backslash and does not start the closing quotes. -/
theorem readLiteral_cons (hb : c ≠ '\\') (hq : c = '"' → ¬ ['"', '"'] <+: text) :
    readLiteral (c :: text) = (readLiteral text).map fun (body, after) => (c :: body, after) := by
  refine readLiteral.eq_3 c text (fun rest hc ht => ?_) (fun _ _ hc _ => hb hc)
  exact hq hc ⟨rest, ht.symm⟩

/-- Where the literal of a text ends, when the text is written before closing quotes and what comes after
them. -/
inductive Outcome (text after : List Char) : Prop
  /-- At the closing quotes. -/
  | closed (hq : endsBare '"' text = false) (hb : endsBare '\\' text = false)
      (h : readLiteral (text ++ quotes ++ after) = some (text, after))
  /-- Before the last double quotes of the text. -/
  | early (hq : endsBare '"' text) (hb : endsBare '\\' text = false) (front : List Char) (k : Nat)
      (hk : 0 < k) (ht : text = front ++ List.replicate k '"')
      (h : readLiteral (text ++ quotes ++ after) = some (front, List.replicate k '"' ++ after))
  /-- Behind the closing quotes, at the end of the next literal if there is one. -/
  | late (hq : endsBare '"' text = false) (hb : endsBare '\\' text)
      (h : readLiteral (text ++ quotes ++ after) =
        (readLiteral after).map fun (body, rest) => (text ++ quotes ++ body, rest))

/-- Characters that the reader passes over change neither the end of the text nor where the literal ends. -/
theorem Outcome.step (h : Outcome text after) (lead : List Char)
    (hr : readLiteral (lead ++ (text ++ quotes ++ after)) =
      (readLiteral (text ++ quotes ++ after)).map fun (body, rest) => (lead ++ body, rest))
    (he : ∀ c, endsBare c (lead ++ text) = endsBare c text) : Outcome (lead ++ text) after := by
  have hs : lead ++ text ++ quotes ++ after = lead ++ (text ++ quotes ++ after) := by simp
  cases h with
  | closed hq hb h =>
    exact .closed ((he _).trans hq) ((he _).trans hb) (by rw [hs, hr, h, Option.map_some])
  | early hq hb front k hk ht h =>
    refine .early ((he _).trans hq) ((he _).trans hb) (lead ++ front) k hk ?_ ?_
    · rw [ht, List.append_assoc]
    · rw [hs, hr, h, Option.map_some]
  | late hq hb h =>
    refine .late ((he _).trans hq) ((he _).trans hb) ?_
    rw [hs, hr, h, Option.map_map]
    simp only [Function.comp_def, List.append_assoc]

/-- Two quotes before something else do not close a literal. -/
theorem readLiteral_two_quotes (ha : ∀ more, after ≠ '"' :: more) :
    readLiteral ('"' :: '"' :: after) =
      (readLiteral after).map fun (body, rest) => ('"' :: '"' :: body, rest) := by
  have hone : ¬ ['"', '"'] <+: after := fun ⟨more, h⟩ => ha _ h.symm
  have htwo : ¬ ['"', '"'] <+: '"' :: after := fun ⟨more, h⟩ => ha more (List.cons.inj h).2.symm
  rw [readLiteral_cons (by decide) (fun _ => htwo), readLiteral_cons (by decide) (fun _ => hone),
    Option.map_map]
  rfl

/-- A text of one character ends late if it is a backslash, early if it is a quote, and in its place otherwise. -/
theorem outcome_singleton (ha : ∀ more, after ≠ '"' :: more) : Outcome [c] after := by
  by_cases hb : c = '\\'
  · subst hb
    refine .late rfl rfl ?_
    change (readLiteral ('"' :: '"' :: after)).map _ = _
    rw [readLiteral_two_quotes ha, Option.map_map]
    rfl
  · by_cases hq : c = '"'
    · subst hq
      exact .early rfl rfl [] 1 Nat.one_pos rfl rfl
    · refine .closed (by simpa [endsBare_singleton] using hq) (by simpa [endsBare_singleton] using hb) ?_
      change readLiteral (c :: (quotes ++ after)) = _
      rw [readLiteral_cons hb (fun h => absurd h hq)]
      rfl

/-- The literal of a text with no three double quotes in a row ends in one of the three places.  The
induction follows the reader; the cases part at the last one or two characters. -/
theorem outcome (ha : ∀ more, after ≠ '"' :: more) (ht : ¬ quotes <:+: text) : Outcome text after := by
  induction text using readLiteral.induct with
  | case1 rest => exact absurd ⟨[], rest, rfl⟩ ht
  | case2 c rest ih =>
    have hrest : ¬ quotes <:+: rest := fun h => ht (List.infix_cons (List.infix_cons h))
    exact (ih hrest).step ['\\', c] rfl fun _ => endsBare_escape
  | case3 c rest hq hb ih =>
    have hrest : ¬ quotes <:+: rest := fun h => ht (List.infix_cons h)
    cases rest with
    | nil => exact outcome_singleton ha
    | cons d more =>
      have hc : c ≠ '\\' := fun h => hb d more h rfl
      by_cases htwo : c = '"' ∧ d = '"' ∧ more = []
      · obtain ⟨rfl, rfl, rfl⟩ := htwo
        exact .early rfl rfl [] 2 Nat.two_pos rfl rfl
      · refine (ih hrest).step [c] ?_ fun _ => endsBare_cons hc (List.cons_ne_nil d more)
        refine readLiteral_cons hc fun hcq => ?_
        rintro ⟨after', h⟩
        obtain ⟨rfl, hmore⟩ := List.cons.inj h
        cases more with
        | nil => exact htwo ⟨hcq, rfl, rfl⟩
        | cons d' more =>
          obtain ⟨rfl, -⟩ := List.cons.inj hmore
          exact hq more hcq rfl
  | case4 => exact .closed endsBare_nil endsBare_nil rfl

/-- The literal is the text exactly when its end does not reach into the closing quotes. -/
theorem Outcome.readLiteral_eq_iff (h : Outcome text after) :
    readLiteral (text ++ quotes ++ after) = some (text, after) ↔
      endsBare '"' text = false ∧ endsBare '\\' text = false := by
  cases h with
  | closed hq hb h =>
    rw [h]
    simp [hq, hb]
  | early hq _ front k hk ht h =>
    have hne : front ≠ text := fun he => by
      have hlength := congrArg List.length ht
      simp [he] at hlength
      omega
    rw [h]
    simp [hq, hne]
  | late _ hb h =>
    have hne : ∀ body : List Char, text ++ quotes ++ body ≠ text := fun body he => by
      have hlength := congrArg List.length he
      simp [quotes] at hlength
    rw [h]
    simp [hb, hne, -List.append_assoc]

end Scan

/-! ## Descriptions in files -/

/-- The text of lines is that of the first of them with that of the others behind it. -/
theorem linesText_append (lines more : List String) :
    linesText (lines ++ more) = linesText lines ++ linesText more := by
  simp [linesText, String.join_append]

/-- The lines of a file around the description of a class. -/
theorem linesText_around {above below : List String} {description : Option String} {d : String}
    (hd : filled? description = some d) :
    linesText (above ++ classDoc description ++ below) =
      linesText above ++ "    \"\"\"" ++ docText d ++ "\"\"\"" ++ "\n\n" ++ linesText below := by
  have hdoc : linesText (classDoc description) = "    \"\"\"" ++ docText d ++ "\"\"\"" ++ "\n\n" := by
    simp only [classDoc, hd, linesText, List.map_cons, List.map_nil, String.join_cons, String.join_nil,
      String.append_assoc]
    rfl
  simp only [linesText_append, hdoc, String.append_assoc]

/-- The file of the enumerations of a model. -/
def enumsFile (t : Target) (m : Model) : Output :=
  ⟨"enums", t.output.child (moduleFile "enums"), enumsText m.enums⟩

/-- The file of the shapes of a model. -/
def shapesFile (t : Target) (m : Model) : Output :=
  ⟨"json interfaces", t.output.child (moduleFile "interfaces"), shapesText (inOrder m.jsonShapes)⟩

/-- A described class in the file of enumerations or of shapes: the file, the lines up to the head of the
class, the description, and the lines of the class below it and after it. -/
inductive Described (t : Target) (m : Model) : Output → List String → String → List String → Prop
  | enumeration {before after : List Enumeration} {e : Enumeration} {d : String}
      (he : m.enums = before ++ e :: after) (hd : filled? e.description = some d) :
      Described t m (enumsFile t m)
        ([generatedLine, "from enum import Enum", ""] ++
          exportLines (m.enums.map fun e => className e.name) ++ before.flatMap enumLines ++
          ["", "", "class " ++ className e.name ++ "(str, Enum):"])
        d
        ((members e.values).map (fun v => "    " ++ v.name ++ " = " ++ Text.quoted v.value) ++
          after.flatMap enumLines)
  | shape {before after : List JsonShape} {s : JsonShape} {d : String}
      (hs : inOrder m.jsonShapes = before ++ s :: after) (hd : filled? s.description = some d) :
      Described t m (shapesFile t m)
        ([generatedLine, "from __future__ import annotations", ""] ++
          classImports "Any, Dict, List, Optional" ++ [""] ++
          exportLines ((inOrder m.jsonShapes).map fun s => className s.name) ++ before.flatMap shapeLines ++
          ["", "", "class " ++ className s.name ++ "(BaseModel):"])
        d
        (configLines ++ (s.fields.map shapeField).flatMap SourceField.lines ++ after.flatMap shapeLines ++
          [""] ++ (inOrder m.jsonShapes).map fun s => className s.name ++ ".model_rebuild()")

section Files

variable {t : Target} {m : Model} {file : Output} {above below : List String} {d : String}

/-- The text of a file around a description. -/
theorem Described.text_eq (h : Described t m file above d below) :
    file.text = linesText above ++ "    \"\"\"" ++ docText d ++ "\"\"\"" ++ "\n\n" ++ linesText below := by
  cases h with
  | @enumeration before after e d he hd =>
    have hclasses : m.enums.flatMap enumLines =
        before.flatMap enumLines ++ (enumLines e ++ after.flatMap enumLines) := by
      rw [he, List.flatMap_append, List.flatMap_cons]
    rw [← linesText_around hd, enumsFile, enumsText, hclasses]
    simp only [enumLines, List.append_assoc]
  | @shape before after s d hs hd =>
    have hclasses : (inOrder m.jsonShapes).flatMap shapeLines =
        before.flatMap shapeLines ++ (shapeLines s ++ after.flatMap shapeLines) := by
      rw [hs, List.flatMap_append, List.flatMap_cons]
    rw [← linesText_around hd, shapesFile, shapesText, hclasses]
    simp only [shapeLines, List.append_assoc]

/-- The files of the described classes are written by every generation that comes to its end. -/
theorem Described.mem_outputs (h : Described t m file above d below) (hm : (manifest t m).fault = none) :
    file ∈ outputs (manifest t m).done := by
  unfold manifest at hm ⊢
  cases htarget : CompileTarget.of t.schema m.enums with
  | error fault => simp [htarget] at hm
  | ok target =>
    simp only [htarget] at hm ⊢
    rw [Progress.join_eq_flatten (Progress.join_fault_eq_none.mp hm)]
    refine List.mem_filterMap.mpr ⟨.write none file, List.mem_flatMap.mpr ?_, rfl⟩
    cases h with
    | enumeration he _ =>
      exact ⟨writing _ _ _, by simp [unlessEmpty, he], List.mem_singleton_self _⟩
    | shape hs _ =>
      have hne : m.jsonShapes ≠ [] := fun hnil => by simp [hnil, inOrder] at hs
      exact ⟨writing _ _ _, by simp [unlessEmpty, hne], List.mem_singleton_self _⟩

/-- What stands behind the closing quotes of a description. -/
def behind (below : List String) : List Char := ("\n\n" ++ linesText below).toList

/-- The characters of a file around a description. -/
theorem Described.characters_eq (h : Described t m file above d below) :
    file.text.toList = (linesText above ++ "    ").toList ++ quotes ++ docCharacters d.toList ++ quotes ++
      behind below := by
  rw [h.text_eq]
  simp only [behind, quotes, docText, String.toList_append, String.toList_ofList, List.append_assoc]
  rfl

/-- A description has one of the outcomes where it stands, since what is behind its literal is no quote. -/
theorem outcome_description (d : String) (below : List String) :
    Outcome (docCharacters d.toList) (behind below) := by
  refine outcome (fun more hmore => ?_) (quotes_not_infix_docCharacters _)
  rw [behind, String.toList_append] at hmore
  exact absurd (List.cons.inj hmore).1 (by decide)

/-- The description of an enumeration stands in the file of the enumerations. -/
theorem exists_described_enumeration {e : Enumeration} (he : e ∈ m.enums)
    (hd : filled? e.description = some d) : ∃ above below, Described t m (enumsFile t m) above d below := by
  obtain ⟨before, after, he⟩ := List.append_of_mem he
  exact ⟨_, _, .enumeration he hd⟩

/-- The description of a shape stands in the file of the shapes, as no shape is left out there. -/
theorem exists_described_shape (hnames : (m.jsonShapes.map (·.name)).Nodup) {s : JsonShape}
    (hs : s ∈ m.jsonShapes) (hd : filled? s.description = some d) :
    ∃ above below, Described t m (shapesFile t m) above d below := by
  obtain ⟨before, after, hs⟩ := List.append_of_mem ((inOrder_perm hnames).mem_iff.mpr hs)
  exact ⟨_, _, .shape hs hd⟩

end Files

/-- Every described enumeration and every described shape has its description between triple quotes in its
file, as `Described` says, and the literal that starts at the opening quotes is exactly the written
description if and only if the description does not end in a double quote or a backslash without a backslash
that escapes it.  With such a quote the literal ends before the last quotes of the description, which are
then read as code; with such a backslash it goes on past the closing quotes into the lines below. -/
theorem descriptions_enclosed_iff (t : Target) (m : Model) :
    (∀ e ∈ m.enums, ∀ d, filled? e.description = some d →
      ∃ above below, Described t m (enumsFile t m) above d below) ∧
    ((m.jsonShapes.map (·.name)).Nodup → ∀ s ∈ m.jsonShapes, ∀ d, filled? s.description = some d →
      ∃ above below, Described t m (shapesFile t m) above d below) ∧
    ∀ file above d below, Described t m file above d below →
      ((manifest t m).fault = none → file ∈ outputs (manifest t m).done) ∧
      file.text.toList = (linesText above ++ "    ").toList ++ quotes ++ docCharacters d.toList ++ quotes ++
        behind below ∧
      (readLiteral (docCharacters d.toList ++ quotes ++ behind below) =
          some (docCharacters d.toList, behind below) ↔
        endsBare '"' (docCharacters d.toList) = false ∧ endsBare '\\' (docCharacters d.toList) = false) ∧
      (endsBare '"' (docCharacters d.toList) → ∃ front k, 0 < k ∧
        docCharacters d.toList = front ++ List.replicate k '"' ∧
        readLiteral (docCharacters d.toList ++ quotes ++ behind below) =
          some (front, List.replicate k '"' ++ behind below)) ∧
      (endsBare '\\' (docCharacters d.toList) →
        readLiteral (docCharacters d.toList ++ quotes ++ behind below) =
          (readLiteral (behind below)).map fun (body, rest) =>
            (docCharacters d.toList ++ quotes ++ body, rest)) := by
  refine ⟨fun e he d hd => exists_described_enumeration he hd,
    fun hnames s hs d hd => exists_described_shape hnames hs hd, fun file above d below h => ?_⟩
  have houtcome := outcome_description d below
  refine ⟨h.mem_outputs, h.characters_eq, houtcome.readLiteral_eq_iff, fun hq => ?_, fun hb => ?_⟩
  · cases houtcome with
    | closed hq' => simp [hq] at hq'
    | early _ _ front k hk ht hread => exact ⟨front, k, hk, ht, hread⟩
    | late hq' => simp [hq] at hq'
  · cases houtcome with
    | closed _ hb' => simp [hb] at hb'
    | early _ hb' => simp [hb] at hb'
    | late _ _ hread => exact hread

/-- A package at a directory. -/
def packageTarget : Target := { output := ⟨"", ["out"]⟩, schema := "public" }

/-- An enumeration and a shape with quotes and backslashes in their descriptions. -/
def describedModel : Model where
  entities := []
  enums := [{ name := "Mood", values := ["CALM"], description := some "\"\"\"calm\"\"\" or C:\\\\" }]
  jsonShapes := [{ name := "Point", fields := [], description := some "written \\\"x\\\"" }]
  relations := []

/-- Descriptions with quotes and backslashes that stay in their literals. -/
theorem descriptions_enclosed_iff_describedModel :
    (manifest packageTarget describedModel).fault = none ∧
    (∃ above below,
      Described packageTarget describedModel (enumsFile packageTarget describedModel) above
        "\"\"\"calm\"\"\" or C:\\\\" below ∧
      readLiteral (docCharacters "\"\"\"calm\"\"\" or C:\\\\".toList ++ quotes ++ behind below) =
        some ("\x27\x27\x27calm\x27\x27\x27 or C:\\\\".toList, behind below)) ∧
    ∃ above below,
      Described packageTarget describedModel (shapesFile packageTarget describedModel) above
        "written \\\"x\\\"" below ∧
      readLiteral (docCharacters "written \\\"x\\\"".toList ++ quotes ++ behind below) =
        some ("written \\\"x\\\"".toList, behind below) := by
  obtain ⟨henums, hshapes, hall⟩ := descriptions_enclosed_iff packageTarget describedModel
  refine ⟨by decide +kernel, ?_, ?_⟩
  · obtain ⟨above, below, h⟩ := henums _ (List.mem_singleton_self _) _ rfl
    obtain ⟨-, -, hread, -, -⟩ := hall _ _ _ _ h
    exact ⟨above, below, h, hread.mpr (by decide)⟩
  · obtain ⟨above, below, h⟩ := hshapes (by decide) _ (List.mem_singleton_self _) _ rfl
    obtain ⟨-, -, hread, -, -⟩ := hall _ _ _ _ h
    exact ⟨above, below, h, hread.mpr (by decide)⟩

/-- An enumeration whose description ends in a quotation. -/
def quotingModel : Model where
  entities := []
  enums := [{ name := "Mood", values := ["CALM"], description := some "say \"hi\"" }]
  jsonShapes := []
  relations := []

/-- The closing quote of a quotation at the end of a description closes the literal with two of the written
quotes, and the third one is left as code. -/
theorem quotation_closes_literal :
    ∃ above below,
      Described packageTarget quotingModel (enumsFile packageTarget quotingModel) above "say \"hi\"" below ∧
      readLiteral (docCharacters "say \"hi\"".toList ++ quotes ++ behind below) =
        some ("say \"hi".toList, '"' :: behind below) :=
  ⟨_, _, .enumeration (show quotingModel.enums = [] ++ _ :: [] from rfl) rfl, rfl⟩

end SchemaReconcile.Artifact
