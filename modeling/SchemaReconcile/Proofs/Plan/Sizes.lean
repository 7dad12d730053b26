import SchemaReconcile.Proofs.Plan.Spelling

/-!
# The sizes of names in a plan

The database keeps the longest beginning of a name that is within its limit (`Naming.kept`), so exactly the
names within the limit stay as they are (`Naming.kept_eq_self_iff`).  The schema is within the limit by its
options, and indexes, constraints and triggers by their shortening.  Enum types, tables and columns are not
shortened: they are as long as the schema, the entities and the fields make them (`Fits`).  Against an empty
schema a plan names them all, so the names of a plan are kept exactly when these fit (`plan_names_kept`).
-/

namespace SchemaReconcile

namespace Naming

/-- The longest beginning of a text with a certain number of bytes at most. -/
def keptChars : ℕ → List Char → List Char
  | _, [] => []
  | room, c :: rest => if c.utf8Size ≤ room then c :: keptChars (room - c.utf8Size) rest else []

/-- What the database keeps of a name. -/
def kept (name : String) : String := String.ofList (keptChars maxIdentifierBytes name.toList)

/-- A text is kept whole exactly when there is room for it. -/
theorem keptChars_eq_self_iff {room : ℕ} {cs : List Char} :
    keptChars room cs = cs ↔ String.utf8Len cs ≤ room := by
  induction cs generalizing room with
  | nil => simp [keptChars]
  | cons c rest ih =>
    rw [keptChars, String.utf8Len_cons]
    split
    · next hroom =>
      rw [List.cons.injEq, ih, and_iff_right rfl]
      omega
    · next hroom =>
      have hlong : ¬ String.utf8Len rest + c.utf8Size ≤ room := by omega
      simp [hlong]

/-- A name is kept whole exactly when it is within the limit. -/
theorem kept_eq_self_iff {name : String} : kept name = name ↔ name.utf8ByteSize ≤ maxIdentifierBytes := by
  have hsize : name.utf8ByteSize = String.utf8Len name.toList := by
    rw [← String.utf8ByteSize_ofList, String.ofList_toList]
  rw [hsize, ← keptChars_eq_self_iff, kept]
  constructor
  · intro h
    rw [← String.toList_ofList (l := keptChars maxIdentifierBytes name.toList), h]
  · intro h
    rw [h, String.ofList_toList]

end Naming

namespace Plan

open Catalog (Operation Snapshot NameKind)
open Settings (Options)

/-- Whether names of a kind are within the limit by themselves. -/
def isShort : NameKind → Bool
  | .schema | .index | .constraint | .trigger => true
  | _ => false

/-- The enum types, the tables and the columns of a model are within the limit. -/
structure Fits (options : Options) (m : Model) : Prop where
  types : ∀ n ∈ m.enums, options.schema.utf8ByteSize + 14 ≤ Naming.maxIdentifierBytes
  tables : ∀ e ∈ m.entities, e.tableName.utf8ByteSize ≤ Naming.maxIdentifierBytes
  columns : ∀ e ∈ m.entities, ∀ f ∈ e.fields, f.columnName.utf8ByteSize ≤ Naming.maxIdentifierBytes

variable {options : Options} {m : Model} {s : Snapshot} {ops : List Operation}

namespace Origin

variable {kind : NameKind} {name : String}

/-- The names of schemas, indexes, constraints and triggers are within the limit. -/
theorem size_le_of_isShort (hm : m.Sound) (hoptions : options.Sound) (h : Origin options m kind name)
    (hkind : isShort kind = true) : name.utf8ByteSize ≤ Naming.maxIdentifierBytes := by
  have hworded := (h.spelled_lineFeed hm hoptions).worded
  cases h with
  | schema => exact hoptions.short
  | index => exact Naming.size_bounded_le hworded
  | uniqueIndex => exact Naming.size_bounded_le hworded
  | constraint => exact Naming.size_bounded_le hworded
  | trigger => exact Naming.size_bounded_le hworded
  | _ => cases hkind

/-- Where the types, the tables and the columns fit, every name is within the limit. -/
theorem size_le_of_fits (hm : m.Sound) (hoptions : options.Sound) (hfits : Fits options m)
    (h : Origin options m kind name) : name.utf8ByteSize ≤ Naming.maxIdentifierBytes := by
  cases h with
  | type hn =>
    rw [Naming.size_enumTypeOf]
    exact hfits.types _ hn
  | table he => exact hfits.tables _ he
  | field he hf => exact hfits.columns _ he _ hf
  | timestamp hname =>
    have htimes : ∀ name ∈ [createdColumn, updatedColumn],
        name.utf8ByteSize ≤ Naming.maxIdentifierBytes := by decide
    exact htimes _ hname
  | schema => exact hoptions.short
  | index _ htable hcolumns => exact size_le_of_isShort hm hoptions (.index _ htable hcolumns) rfl
  | uniqueIndex htable hcolumn => exact size_le_of_isShort hm hoptions (.uniqueIndex htable hcolumn) rfl
  | constraint htable hcolumn => exact size_le_of_isShort hm hoptions (.constraint htable hcolumn) rfl
  | trigger htable => exact size_le_of_isShort hm hoptions (.trigger htable) rfl

end Origin

/-- Against an empty schema, names within the limit need a model that fits. -/
theorem fits_of_size_le (hm : m.Sound) (hplan : plan options m s = .ok ops) (htables : s.tables = [])
    (henums : s.enums = [])
    (hsize : ∀ p ∈ namesOf ops, p.2.utf8ByteSize ≤ Naming.maxIdentifierBytes) : Fits options m := by
  refine ⟨fun n hn => ?_, fun e he => ?_, fun e he f hf => ?_⟩
  · have htype := hsize _ (mem_namesOf_of_enums_nil hm hplan henums hn)
    rwa [Naming.size_enumTypeOf] at htype
  · have htable := hsize _ (mem_namesOf_of_tables_nil hm hplan htables he).1
    exact htable
  · have hcolumn := hsize _ ((mem_namesOf_of_tables_nil hm hplan htables he).2 f hf)
    exact hcolumn

/-- The names of the schema, of indexes, constraints and triggers in a plan are within the limit of the
database.  Enum types are fourteen bytes longer than the schema.  All names are within the limit, and kept
as they are, where the enum types, the tables and the columns of the model fit; against an empty schema they
are only there. -/
theorem plan_names_kept {d : Document} (hextract : extract d = .ok m)
    {record : List (Value × Value)} (hoptions : Settings.readOptions record = .ok options)
    (hplan : plan options m s = .ok ops) :
    (∀ p ∈ namesOf ops, isShort p.1 = true → p.2.utf8ByteSize ≤ Naming.maxIdentifierBytes) ∧
    (∀ p ∈ namesOf ops, p.1 = .type → p.2.utf8ByteSize = options.schema.utf8ByteSize + 14) ∧
    (Fits options m → ∀ p ∈ namesOf ops,
      p.2.utf8ByteSize ≤ Naming.maxIdentifierBytes ∧ Naming.kept p.2 = p.2) ∧
    (s.tables = [] → s.enums = [] → (∀ p ∈ namesOf ops, Naming.kept p.2 = p.2) → Fits options m) := by
  have hsound := extract_sound hextract
  have hvalid := Settings.sound_of_readOptions hoptions
  refine ⟨fun p hp hkind => (origin_of_plan hsound hplan hp).size_le_of_isShort hsound hvalid hkind,
    ?_, ?_, ?_⟩
  · rintro ⟨kind, name⟩ hp rfl
    have horigin := origin_of_plan hsound hplan hp
    cases horigin with
    | type hn => exact Naming.size_enumTypeOf _ _
  · intro hfits p hp
    have hsize := (origin_of_plan hsound hplan hp).size_le_of_fits hsound hvalid hfits
    exact ⟨hsize, Naming.kept_eq_self_iff.mpr hsize⟩
  · intro htables henums hkept
    exact fits_of_size_le hsound hplan htables henums
      fun p hp => Naming.kept_eq_self_iff.mp (hkept p hp)

/-- The names in the plan for authors and profiles are kept as they are. -/
theorem plan_names_kept_profilePlan :
    Settings.readOptions [] = .ok {} ∧ Fits {} profileModel ∧
      ∀ p ∈ namesOf profilePlan, Naming.kept p.2 = p.2 := by
  have hoptions : Settings.readOptions [] = .ok {} := rfl
  have hfits : Fits {} profileModel :=
    ⟨by decide +kernel, by decide +kernel, by decide +kernel⟩
  obtain ⟨-, -, hkept, -⟩ := plan_names_kept extract_profileDocument hoptions plan_profileModel
  exact ⟨hoptions, hfits, fun p hp => (hkept hfits p hp).2⟩

/-- A name of 64 letters. -/
def longName : String := String.ofList (List.replicate 64 'b')

/-- An entity with a field of a long name. -/
def longNameDocument : Document where
  types :=
    [ { kind := .object, name := "A", directives := [{ name := "entity" }]
        fields :=
          [ { name := "id", type := { name := "ID", nullable := false } },
            { name := longName, type := { name := "String" } } ] } ]

/-- The column of a field with a long name has the long name, of which the database keeps a part only. -/
theorem column_over_limit :
    ∃ m ops, extract longNameDocument = .ok m ∧
      plan { timestamps := false } m (.empty "public") = .ok ops ∧
      (.column, longName) ∈ namesOf ops ∧ Naming.maxIdentifierBytes < longName.utf8ByteSize ∧
      Naming.kept longName ≠ longName := by
  have hmodel : extract longNameDocument = .ok ((extract longNameDocument).toOption.getD {}) :=
    eq_ok_of_toOption (by decide +kernel)
  have hsize : Naming.maxIdentifierBytes < longName.utf8ByteSize := by decide +kernel
  refine ⟨_, _, hmodel, eq_ok_of_toOption
    (a := (plan { timestamps := false } ((extract longNameDocument).toOption.getD {})
      (.empty "public")).toOption.getD []) (by decide +kernel), by decide +kernel, hsize, ?_⟩
  rw [ne_eq, Naming.kept_eq_self_iff]
  exact Nat.not_le.mpr hsize

end Plan

end SchemaReconcile
