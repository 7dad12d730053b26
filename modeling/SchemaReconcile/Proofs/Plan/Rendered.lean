import SchemaReconcile.Proofs.Catalog.Skeleton
import SchemaReconcile.Proofs.Plan.Additive
import SchemaReconcile.Proofs.Plan.Spelling

/-!
# The tokens of a plan

Nothing in a model gets out of its place in the statements of a plan: the lexer of the database finds in
them the skeletons of the planned operations, with each name as one identifier and each text as one string
(`plan_statements_lexed`).  Texts may be anything that can be written at all.

The model need not be a sound one.  That there is a plan means that all entities compile
(`compiles_of_plan`), so names are checked, and each operation has the shape and the names that it has for a
sound model (`placed_of_mem_wanted`).  The key of a relation refers to the primary key of an entity, so
there must be one: no entity can be built without it (`entityOf`).
-/

namespace SchemaReconcile.Plan

open Catalog (Operation Snapshot)
open Settings (Options)

variable {options : Options} {m : Model} {s : Snapshot} {ops : List Operation}

/-! ## Entities -/

/-- Where there is a plan, every entity compiles. -/
theorem compiles_of_plan (hplan : plan options m s = .ok ops) {e : Entity} (he : e ∈ m.entities) :
    ∃ c, e.compile (targetOf options m) = .ok c := by
  have hagenda := agenda_fault_of_plan hplan
  rw [agenda, Progress.join_fault_eq_none] at hagenda
  simp only [List.forall_mem_cons, Option.map_eq_none_iff] at hagenda
  obtain ⟨-, -, hcompiled, -⟩ := hagenda
  have hall : m.compileEntities (targetOf options m) =
      ⟨(m.compileEntities (targetOf options m)).done, none⟩ := by
    rw [← hcompiled]
  obtain ⟨c, -, hc⟩ := exists_right_of_forall₂ (Progress.of_eq_iff.mp hall) he
  exact ⟨c, hc⟩

/-- A field of a foreign key has a column of the entity. -/
theorem mem_fieldColumns_of_keyField? {c : CompiledEntity} {column : String} {f : CompiledField}
    (h : keyField? c column = some f) : column ∈ c.fieldColumns := by
  have hcolumn : f.column = column ∧ f.isForeignKey = true := by
    simpa using List.find?_some h
  rw [← hcolumn.1]
  exact List.mem_map_of_mem (List.mem_of_find?_eq_some h)

/-! ## Operations -/

/-- An operation has the shape that plans have, and its names have an origin in a model. -/
structure Placed (options : Options) (m : Model) (op : Operation) : Prop where
  shaped : op.Shaped
  names : ∀ p ∈ op.names, Origin options m p.1 p.2

/-- The operations for an entity that compiles are in place. -/
theorem placed_of_mem_entityOperations {declared e : Entity} {c : CompiledEntity} (he : e ∈ m.entities)
    (hc : e.compile (targetOf options m) = .ok c) {op : Operation}
    (h : op ∈ entityOperations options declared c) : Placed options m op := by
  have htable := Origin.of_compiled he hc
  obtain rfl | ⟨column, hcolumn, rfl⟩ | ⟨spec, -, rfl⟩ | ⟨-, rfl⟩ := mem_entityOperations.mp h
  · refine ⟨fun column hcolumn => stored_of_mem_columns hc hcolumn, ?_⟩
    simp only [Operation.names, List.forall_mem_cons]
    refine ⟨.schema, htable, fun p hp => ?_⟩
    obtain ⟨column, hcolumn, hp⟩ := List.mem_flatMap.mp hp
    exact Origin.of_mem_columnNames he hc hcolumn hp
  · refine ⟨stored_of_mem_columns hc hcolumn, ?_⟩
    simp only [Operation.names, List.forall_mem_cons]
    exact ⟨.schema, htable, fun p hp => Origin.of_mem_columnNames he hc hcolumn hp⟩
  · have hcolumns : ∀ column ∈ indexedColumns c spec, Origin options m .column column :=
      fun column hcolumn => Origin.of_mem_indexedColumns he hc hcolumn
    refine ⟨fun method hmethod => ?_, ?_⟩
    · obtain ⟨known, -, rfl⟩ := Option.map_eq_some_iff.mp hmethod
      exact ⟨known, rfl⟩
    · simp only [indexOperation, Operation.names, List.forall_mem_cons, List.forall_mem_map]
      exact ⟨.schema, htable, .index _ htable hcolumns, hcolumns⟩
  · refine ⟨trivial, ?_⟩
    simp only [Operation.names, List.forall_mem_cons]
    exact ⟨.schema, htable, .trigger htable, by simp⟩

/-- The operations for a relation are in place, if the entity that it refers to has one primary key. -/
theorem placed_of_mem_relationPart {r : Relation} {e t : Entity} {owner target : CompiledEntity}
    {f : CompiledField} (he : e ∈ m.entities) (howner : e.compile (targetOf options m) = .ok owner)
    (ht : t ∈ m.entities) (htarget : t.compile (targetOf options m) = .ok target)
    (hkey : t.primaryKeys.length = 1) (hf : keyField? owner (keyColumnOf r) = some f) {op : Operation}
    (h : op ∈ (relationPart options.schema owner target f r).operations) : Placed options m op := by
  have htable := Origin.of_compiled he howner
  have hcolumn := Origin.of_mem_fieldColumns he howner (mem_fieldColumns_of_keyField? hf)
  have hrefers := Origin.of_mem_fieldColumns ht htarget (Entity.keyColumn_mem hkey htarget)
  rcases List.mem_cons.mp h with rfl | h
  · refine ⟨?_, ?_⟩
    · simp only [relationPart, Operation.Shaped, deleteAction]
      split <;> decide
    · simp only [relationPart, Operation.names, List.forall_mem_cons]
      exact ⟨.schema, htable, .constraint htable hcolumn, hcolumn, Origin.of_compiled ht htarget,
        hrefers, by simp⟩
  · obtain ⟨-, rfl⟩ | ⟨-, rfl⟩ := mem_inverseOperations.mp h
    · refine ⟨trivial, ?_⟩
      simp only [Operation.names, List.forall_mem_cons]
      exact ⟨.schema, htable, .constraint htable hcolumn, by simp⟩
    · refine ⟨(fun method hmethod => by cases hmethod), ?_⟩
      simp only [Operation.names, List.map_cons, List.forall_mem_cons]
      exact ⟨.schema, htable, .uniqueIndex htable hcolumn, hcolumn, by simp⟩

/-- The operations that a model calls for are in place, if its entities have one primary key each. -/
theorem placed_of_mem_wanted (hkeys : ∀ e ∈ m.entities, e.primaryKeys.length = 1) {op : Operation}
    (h : op ∈ wanted options m) : Placed options m op := by
  cases outlined_of_mem_wanted h with
  | schema => exact ⟨trivial, List.forall_mem_singleton.mpr .schema⟩
  | @enumeration n _ hn hop =>
    have hnames : ∀ p ∈ [(Catalog.NameKind.schema, options.schema),
        (Catalog.NameKind.type, Naming.enumTypeOf options.schema n.name)], Origin options m p.1 p.2 :=
      List.forall_mem_cons.mpr ⟨.schema, List.forall_mem_singleton.mpr (.type hn)⟩
    rcases List.mem_pair.mp hop with rfl | rfl
    · exact ⟨trivial, hnames⟩
    · exact ⟨trivial, hnames⟩
  | entity _ hc hop =>
    obtain ⟨e, he, -, hc⟩ := exists_of_compiledOf hc
    exact placed_of_mem_entityOperations he hc hop
  | relation _ howner htarget hf hop =>
    obtain ⟨e, he, -, howner⟩ := exists_of_compiledOf howner
    obtain ⟨t, ht, -, htarget⟩ := exists_of_compiledOf htarget
    exact placed_of_mem_relationPart he howner ht htarget (hkeys t ht) hf hop

/-! ## Plans -/

/-- The lexer finds in the statements of a plan the skeletons of its operations: with one identifier for
each name and one string for each text, which are those of the operation.  The texts may be any without
`U+0000`. -/
theorem plan_statements_lexed {record : List (Value × Value)}
    (hoptions : Settings.readOptions record = .ok options)
    (hkeys : ∀ e ∈ m.entities, e.primaryKeys.length = 1) (hplan : plan options m s = .ok ops) :
    ∀ op ∈ ops, (∀ text ∈ op.texts, Char.ofNat 0 ∉ text.toList) →
      ∃ rendered, op.render = .ok rendered ∧ rendered.map Sql.lex = op.skeleton.map some ∧
        op.skeleton.flatMap Sql.strings = op.texts := by
  intro op hop htexts
  have hwanted : op ∈ wanted options m := by
    have hsub := settle_sublist (wanted options m) s
    rw [settle_of_plan hplan] at hsub
    exact hsub.subset hop
  obtain ⟨hshaped, horigin⟩ := placed_of_mem_wanted hkeys hwanted
  have hsafe : ∀ e ∈ m.entities, Naming.isSafe e.tableName = true ∧
      ∀ f ∈ e.fields, Naming.isSafe f.columnName = true := by
    intro e he
    obtain ⟨c, hc⟩ := compiles_of_plan hplan he
    exact Entity.safe_of_compile hc
  have hnames : ∀ p ∈ op.names, p.2 ≠ "" := by
    intro p hp
    have hschema := (Settings.sound_of_readOptions hoptions).plain
    exact ne_empty_of_spelled ((horigin p hp).spelled (hschema.mono ['\n'])
      (fun e he => Naming.spelled_of_isSafe (hsafe e he).1)
      fun e he f hf => Naming.spelled_of_isSafe ((hsafe e he).2 f hf))
  obtain ⟨rendered, hrender, hlex⟩ := Operation.lex_render hshaped hnames htexts
  exact ⟨rendered, hrender, hlex, Operation.strings_skeleton op⟩

/-- A model with quotes, backslashes, braces and dollar signs in its texts. -/
def quotedModel : Model where
  entities :=
    [ { name := "Note", description := some "\x7b0\x7d isn't \"$$\""
        fields :=
          [ { name := "id", type := .scalar .id },
            { name := "mood", type := .enumeration "Mood"
              description := some "'); DROP TABLE note; --" } ] } ]
  enums := [{ name := "Mood", values := ["it's", "C:\\new", "\x7b\x7d$$"] }]

/-- The operation for the type of its enumeration. -/
def moodType : Operation :=
  .createEnumType "public" (Naming.enumTypeOf "public" "Mood") ["it's", "C:\\new", "\x7b\x7d$$"] "Mood"

/-- The labels of this type are read back as they are. -/
theorem plan_statements_lexed_moodType :
    Settings.readOptions [] = .ok {} ∧ (∀ e ∈ quotedModel.entities, e.primaryKeys.length = 1) ∧
      ∃ ops, plan {} quotedModel (.empty "public") = .ok ops ∧ moodType ∈ ops ∧
        (∀ text ∈ moodType.texts, Char.ofNat 0 ∉ text.toList) ∧
        ∃ rendered, moodType.render = .ok rendered ∧ rendered.map Sql.lex =
          [some [.word "CREATE", .word "TYPE", .identifier "public", .symbol '.',
            .identifier (Naming.enumTypeOf "public" "Mood"), .word "AS", .word "ENUM",
            .symbol '(', .string "it's", .symbol ',', .string "C:\\new", .symbol ',',
            .string "\x7b\x7d$$", .symbol ')']] := by
  have hoptions : Settings.readOptions [] = .ok {} := rfl
  have hkeys : ∀ e ∈ quotedModel.entities, e.primaryKeys.length = 1 := by decide
  have hplan : plan {} quotedModel (.empty "public") =
      .ok ((plan {} quotedModel (.empty "public")).toOption.getD []) :=
    eq_ok_of_toOption (by decide +kernel)
  have hop : moodType ∈ (plan {} quotedModel (.empty "public")).toOption.getD [] := by decide +kernel
  have htexts : ∀ text ∈ moodType.texts, Char.ofNat 0 ∉ text.toList := by decide
  obtain ⟨rendered, hrender, hlex, -⟩ := plan_statements_lexed hoptions hkeys hplan _ hop htexts
  have hskeleton : moodType.skeleton =
      [[.word "CREATE", .word "TYPE", .identifier "public", .symbol '.',
        .identifier (Naming.enumTypeOf "public" "Mood"), .word "AS", .word "ENUM",
        .symbol '(', .string "it's", .symbol ',', .string "C:\\new", .symbol ',',
        .string "\x7b\x7d$$", .symbol ')']] := rfl
  rw [hskeleton] at hlex
  exact ⟨hoptions, hkeys, _, hplan, hop, htexts, rendered, hrender, hlex⟩

end SchemaReconcile.Plan
