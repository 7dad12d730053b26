import SchemaReconcile.Proofs.Plan.Names

/-!
# The spelling of names in a plan

The names in a plan are put together from a plain schema and from tables and columns whose names were
checked.  The check lets a line feed through at the end of a name, so a name in a plan has word characters
and perhaps line feeds (`Origin.spelled_lineFeed`), and all names are plain when no entity and no field has
a line feed in its name.  Against a schema without tables this is also necessary (`plan_names_spelled`).

Nothing but these names gets into the place of an identifier: the columns of compiled entities have types
and defaults without identifiers of their own (`stored_of_mem_columns`).
-/

namespace SchemaReconcile.Plan

open Catalog (Operation Snapshot NameKind)
open Catalog.Operation (IsStored)
open Settings (Options)

variable {options : Options} {m : Model} {s : Snapshot} {ops : List Operation}

/-! ## Names -/

/-- Names are spelled as the schema, the tables and the columns of the fields are. -/
theorem Origin.spelled {others : List Char} (hschema : Naming.Spelled others options.schema)
    (htables : ∀ e ∈ m.entities, Naming.Spelled others e.tableName)
    (hcolumns : ∀ e ∈ m.entities, ∀ f ∈ e.fields, Naming.Spelled others f.columnName)
    {kind : NameKind} {name : String} (h : Origin options m kind name) :
    Naming.Spelled others name := by
  induction h with
  | schema => exact hschema
  | type hn => exact Naming.spelled_enumTypeOf hschema _
  | table he => exact htables _ he
  | field he hf => exact hcolumns _ he _ hf
  | timestamp hname =>
    have htimes : ∀ name ∈ [createdColumn, updatedColumn],
        Naming.isSafe name = true ∧ '\n' ∉ name.toList := by decide
    obtain ⟨hsafe, hnone⟩ := htimes _ hname
    exact (Naming.plain_of_isSafe hsafe hnone).mono _
  | index unique _ _ ihtable ihcolumns => exact Naming.spelled_indexName ihtable ihcolumns unique
  | uniqueIndex _ _ ihtable ihcolumn => exact Naming.spelled_uniqueIndex ihtable ihcolumn
  | constraint _ _ ihtable ihcolumn => exact Naming.spelled_foreignKeyConstraint ihtable ihcolumn
  | trigger _ ihtable => exact Naming.spelled_triggerName ihtable

/-- Names that come from an extracted model have word characters, and perhaps line feeds. -/
theorem Origin.spelled_lineFeed (hm : m.Sound) (hoptions : options.Sound) {kind : NameKind}
    {name : String} (h : Origin options m kind name) : Naming.Spelled ['\n'] name :=
  h.spelled (hoptions.plain.mono _) (fun e he => Naming.spelled_of_isSafe (hm.entity e he).safeTable)
    fun e he f hf => Naming.spelled_of_isSafe ((hm.entity e he).columns.safe f hf)

/-! ## Identifiers -/

/-- The columns of a compiled entity have the types of scalar kinds and enumerations, and no default but the
time. -/
theorem stored_of_mem_columns {e : Entity} {target : CompileTarget} {c : CompiledEntity}
    (hc : e.compile target = .ok c) {timestamps : Bool} {column : Sql.Column}
    (hcolumn : column ∈ c.columns timestamps) : IsStored column where
  type := by
    rcases Entity.type_of_mem_columns hc hcolumn with htype | ⟨name, -, isArray, htype⟩
    · exact .inl htype
    · exact .inr ⟨_, _, isArray, htype⟩
  default d hd := by
    rcases List.mem_append.mp hcolumn with hcolumn | hcolumn
    · obtain ⟨g, -, rfl⟩ := List.mem_map.mp hcolumn
      cases hd
    · split at hcolumn
      · obtain ⟨time, -, rfl⟩ := List.mem_map.mp hcolumn
        exact (Option.some.inj hd).symm
      · cases hcolumn

/-- A name that is spelled is not empty. -/
theorem ne_empty_of_spelled {others : List Char} {name : String} (h : Naming.Spelled others name) :
    name ≠ "" := by
  rintro rfl
  obtain ⟨c, hc, -⟩ := h.start
  cases hc

/-- The operations that a sound model calls for are regular. -/
theorem regular_of_calls (hm : m.Sound) (hoptions : options.Sound) {op : Operation}
    (h : Calls options m op) : op.Regular := by
  have hnames := Origin.of_calls hm h
  cases h with
  | table he hc => exact fun column hcolumn => (stored_of_mem_columns hc hcolumn).isRegular
  | column he hc hcolumn => exact (stored_of_mem_columns hc hcolumn).isRegular
  | index he hc hspec =>
    have hname := hnames _ (List.mem_cons_of_mem _ (List.mem_cons_of_mem _ List.mem_cons_self))
    exact ne_empty_of_spelled (hname.spelled_lineFeed hm hoptions)
  | uniqueIndex hr hjoins hkind =>
    have hname := hnames _ (List.mem_cons_of_mem _ (List.mem_cons_of_mem _ List.mem_cons_self))
    exact ne_empty_of_spelled (hname.spelled_lineFeed hm hoptions)
  | _ => exact trivial

/-! ## Plans -/

/-- Against a schema without tables, names without line feeds need a model without line feeds. -/
theorem onOneLine_of_plain {d : Document} (hextract : extract d = .ok m)
    (hplan : plan options m s = .ok ops) (htables : s.tables = [])
    (hplain : ∀ p ∈ namesOf ops, Naming.Plain p.2) : m.OnOneLine := by
  have hsound := extract_sound hextract
  have hnone : ∀ p ∈ namesOf ops, '\n' ∉ p.2.toList := by
    intro p hp hmem
    rcases (hplain p hp).worded _ hmem with hword | hother
    · exact absurd hword (by decide)
    · cases hother
  intro e he
  obtain ⟨htable, hcolumns⟩ := mem_namesOf_of_tables_nil hsound hplan htables he
  refine ⟨fun hmem => hnone _ htable ((lineFeed_mem_tableName hextract he).mpr hmem), ?_⟩
  intro f hf hmem
  exact hnone _ (hcolumns f hf) ((lineFeed_mem_columnName hextract he hf).mpr hmem)

/-- A model without line feeds has plain names only. -/
theorem plain_of_onOneLine {d : Document} (hextract : extract d = .ok m) (hoptions : options.Sound)
    (hline : m.OnOneLine) {kind : NameKind} {name : String} (h : Origin options m kind name) :
    Naming.Plain name := by
  have hsound := extract_sound hextract
  refine h.spelled hoptions.plain (fun e he => ?_) (fun e he f hf => ?_)
  · refine Naming.plain_of_isSafe (hsound.entity e he).safeTable ?_
    rw [lineFeed_mem_tableName hextract he]
    exact (hline e he).1
  · refine Naming.plain_of_isSafe ((hsound.entity e he).columns.safe f hf) ?_
    rw [lineFeed_mem_columnName hextract he hf]
    exact (hline e he).2 f hf

/-- The names in a plan start with a letter or underscore, and go on with letters, digits, underscores and
perhaps line feeds.  Those of the schema and of enum types are plain; all are where no entity and no field
has a line feed in its name, and only there if the plan is against a schema without tables.  Statements have
no other identifiers than these names. -/
theorem plan_names_spelled {d : Document} (hextract : extract d = .ok m)
    {record : List (Value × Value)} (hoptions : Settings.readOptions record = .ok options)
    (hplan : plan options m s = .ok ops) :
    (∀ p ∈ namesOf ops, Naming.Spelled ['\n'] p.2) ∧
    (∀ p ∈ namesOf ops, p.1 = .schema ∨ p.1 = .type → Naming.Plain p.2) ∧
    (m.OnOneLine → ∀ p ∈ namesOf ops, Naming.Plain p.2) ∧
    (s.tables = [] → (∀ p ∈ namesOf ops, Naming.Plain p.2) → m.OnOneLine) ∧
    ∀ op ∈ ops, ∀ statements, op.statements = .ok statements → ∀ statement ∈ statements,
      ∀ name, Sql.Mentions statement name → name ∈ op.names.map Prod.snd := by
  have hsound := extract_sound hextract
  have hvalid := Settings.sound_of_readOptions hoptions
  refine ⟨fun p hp => (origin_of_plan hsound hplan hp).spelled_lineFeed hsound hvalid, ?_,
    fun hline p hp => plain_of_onOneLine hextract hvalid hline (origin_of_plan hsound hplan hp),
    onOneLine_of_plain hextract hplan, ?_⟩
  · rintro ⟨kind, name⟩ hp hkind
    have horigin := origin_of_plan hsound hplan hp
    dsimp only at horigin hkind ⊢
    cases horigin with
    | schema => exact hvalid.plain
    | type hn => exact Naming.spelled_enumTypeOf hvalid.plain _
    | _ => simp at hkind
  · intro op hop statements hstatements statement hstatement name hname
    have hcalls := (eachTurn_of_plan hsound hplan).1 op hop
    exact Operation.mem_names_of_mentions (regular_of_calls hsound hvalid hcalls) hstatements hstatement
      hname

/-- The names in the plan for authors and profiles are plain. -/
theorem plan_names_spelled_profilePlan :
    Settings.readOptions [] = .ok {} ∧ profileModel.OnOneLine ∧
      ∀ p ∈ namesOf profilePlan, Naming.Plain p.2 := by
  have hoptions : Settings.readOptions [] = .ok {} := rfl
  have hline : profileModel.OnOneLine := by
    unfold Model.OnOneLine
    decide +kernel
  obtain ⟨-, -, hplain, -⟩ := plan_names_spelled extract_profileDocument hoptions plan_profileModel
  exact ⟨hoptions, hline, hplain hline⟩

/-- An entity with a line feed at the end of its name. -/
def lineFeedDocument : Document where
  types :=
    [ { kind := .object, name := "Book\n", directives := [{ name := "entity" }]
        fields :=
          [ { name := "id", type := { name := "ID", nullable := false } },
            { name := "title", type := { name := "String" }
              directives := [{ name := "index" }] } ] } ]

/-- The table of such an entity has the line feed in its name, and its index has it in the middle. -/
theorem table_with_lineFeed :
    ∃ m ops, extract lineFeedDocument = .ok m ∧ plan {} m (.empty "public") = .ok ops ∧
      (.table, "book\n") ∈ namesOf ops ∧ (.index, "idx_book\n_title") ∈ namesOf ops ∧
      ¬ Naming.Plain "book\n" ∧ ¬ Naming.Plain "idx_book\n_title" := by
  have hno : ∀ name : String, '\n' ∈ name.toList → ¬ Naming.Plain name := by
    intro name hmem hplain
    rcases hplain.worded _ hmem with hword | hother
    · exact absurd hword (by decide)
    · cases hother
  have hmodel : extract lineFeedDocument = .ok ((extract lineFeedDocument).toOption.getD {}) :=
    eq_ok_of_toOption (by decide +kernel)
  refine ⟨_, _, hmodel, eq_ok_of_toOption
    (a := (plan {} ((extract lineFeedDocument).toOption.getD {}) (.empty "public")).toOption.getD [])
    (by decide +kernel), by decide +kernel, by decide +kernel, hno _ (by decide), hno _ (by decide)⟩

end SchemaReconcile.Plan
