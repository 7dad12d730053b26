import Mathlib.Data.List.Basic
import SchemaReconcile.Model.Entity

/-!
# What indexes say about a field

An index decides the uniqueness of a field when it is over that field alone and declares a verdict
(`IndexSpec.Decides`).  The indexes of an entity are noted one by one, with what was found so far kept beside; from any
such state the run adds whether some index names the field, and the first verdict unless there was one
(`foldl_note`).  So of several verdicts on a field the first one counts, whatever other indexes stand around it.
-/

namespace SchemaReconcile

variable {field : String} {spec : IndexSpec} {indexes : List IndexSpec} {b : Bool}

/-! ## One index -/

/-- An index is over one field alone and declares whether this is unique. -/
structure IndexSpec.Decides (spec : IndexSpec) (field : String) (b : Bool) : Prop where
  fields : spec.fields = [field]
  unique : spec.unique = some b

/-- The verdict of an index is the one that it declares on its only field. -/
theorem IndexSpec.verdict?_eq_some_iff : spec.verdict? field = some b ↔ spec.Decides field b := by
  unfold IndexSpec.verdict? IndexSpec.namesOnly
  constructor
  · intro h
    split at h
    · next honly => exact ⟨beq_iff_eq.mp honly, h⟩
    · cases h
  · rintro ⟨honly, hunique⟩
    rw [if_pos (beq_iff_eq.mpr honly), hunique]

/-- An index has no verdict exactly when it decides nothing. -/
theorem IndexSpec.verdict?_eq_none_iff : spec.verdict? field = none ↔ ∀ b, ¬ spec.Decides field b := by
  simp only [Option.eq_none_iff_forall_not_mem, Option.mem_def, verdict?_eq_some_iff]

/-- An index over no field or several has no verdict, and neither has one that declares none. -/
theorem IndexSpec.verdict?_eq_none (h : spec.fields.length ≠ 1 ∨ spec.unique = none) (field : String) :
    spec.verdict? field = none := by
  rw [verdict?_eq_none_iff]
  rintro b ⟨hfields, hunique⟩
  rcases h with hlength | hnone
  · exact hlength (hfields ▸ rfl)
  · rw [hnone] at hunique
    cases hunique

/-- What an index adds to what is known of a field.  Only an index that names the field can decide about it. -/
theorem IndexFlags.note_eq (flags : IndexFlags) (field : String) (spec : IndexSpec) :
    flags.note field spec =
      ⟨flags.indexed || spec.fields.contains field, flags.unique.or (spec.verdict? field)⟩ := by
  unfold IndexFlags.note
  cases hnames : spec.fields.contains field with
  | true => simp [Option.orElse_eq_or]
  | false =>
    have hnone : spec.verdict? field = none := by
      rw [IndexSpec.verdict?_eq_none_iff]
      rintro b ⟨honly, -⟩
      simp [honly] at hnames
    simp [hnone]

/-! ## Several indexes -/

/-- Indexes add to what is known whether one of them names the field, and their first verdict. -/
theorem foldl_note (flags : IndexFlags) (field : String) (indexes : List IndexSpec) :
    indexes.foldl (fun flags spec => flags.note field spec) flags =
      ⟨flags.indexed || indexes.any fun spec => spec.fields.contains field,
        flags.unique.or (indexes.findSome? fun spec => spec.verdict? field)⟩ := by
  induction indexes generalizing flags with
  | nil => simp
  | cons spec rest ih =>
    rw [List.foldl_cons, ih, IndexFlags.note_eq, List.any_cons, List.findSome?_cons, Bool.or_assoc, Option.or_assoc]
    cases spec.verdict? field <;> rfl

/-- A field is indexed when some index names it. -/
theorem indexed_indexFlags :
    (indexFlags field indexes).indexed = true ↔ ∃ spec ∈ indexes, field ∈ spec.fields := by
  rw [indexFlags, foldl_note]
  simp

/-- What is known of the uniqueness of a field is the first verdict. -/
theorem unique_indexFlags :
    (indexFlags field indexes).unique = indexes.findSome? fun spec => spec.verdict? field := by
  rw [indexFlags, foldl_note, Option.none_or]

/-- The first of the indexes that decide about a field decides. -/
theorem unique_indexFlags_eq_some_iff : (indexFlags field indexes).unique = some b ↔
    ∃ before spec after, indexes = before ++ spec :: after ∧ spec.Decides field b ∧
      ∀ s ∈ before, ∀ b', ¬ s.Decides field b' := by
  simp only [unique_indexFlags, List.findSome?_eq_some_iff, IndexSpec.verdict?_eq_some_iff,
    IndexSpec.verdict?_eq_none_iff]

/-- Nothing is known of the uniqueness of a field when no index decides about it. -/
theorem unique_indexFlags_eq_none_iff :
    (indexFlags field indexes).unique = none ↔ ∀ spec ∈ indexes, ∀ b, ¬ spec.Decides field b := by
  simp only [unique_indexFlags, List.findSome?_eq_none_iff, IndexSpec.verdict?_eq_none_iff]

/-- Indexes without a verdict make no difference to the uniqueness of a field, wherever they stand. -/
theorem unique_indexFlags_insert {added : List IndexSpec}
    (h : ∀ s ∈ added, s.fields.length ≠ 1 ∨ s.unique = none) (field : String) (before after : List IndexSpec) :
    (indexFlags field (before ++ added ++ after)).unique = (indexFlags field (before ++ after)).unique := by
  have hnone : (added.findSome? fun spec => spec.verdict? field) = none :=
    List.findSome?_eq_none_iff.mpr fun s hs => IndexSpec.verdict?_eq_none (h s hs) field
  simp only [unique_indexFlags, List.findSome?_append, hnone, Option.or_none]

/-- A verdict stays, whatever indexes come behind. -/
theorem unique_indexFlags_append (h : (indexFlags field indexes).unique = some b) (more : List IndexSpec) :
    (indexFlags field (indexes ++ more)).unique = some b := by
  rw [unique_indexFlags] at h ⊢
  rw [List.findSome?_append, h, Option.some_or]

/-- A field is indexed exactly when some index names it, and it is unique or not as the first index says that is over
the field alone and declares a verdict.  So indexes over several fields, and those without a verdict, may be put in
anywhere, and any indexes may come behind a verdict. -/
theorem indexFlags_firstVerdict (field : String) (indexes : List IndexSpec) :
    ((indexFlags field indexes).indexed = true ↔ ∃ spec ∈ indexes, field ∈ spec.fields) ∧
    (∀ b, (indexFlags field indexes).unique = some b ↔
      ∃ before spec after, indexes = before ++ spec :: after ∧ spec.Decides field b ∧
        ∀ s ∈ before, ∀ b', ¬ s.Decides field b') ∧
    ((indexFlags field indexes).unique = none ↔ ∀ spec ∈ indexes, ∀ b, ¬ spec.Decides field b) ∧
    (∀ before added after, indexes = before ++ after → (∀ s ∈ added, s.fields.length ≠ 1 ∨ s.unique = none) →
      (indexFlags field (before ++ added ++ after)).unique = (indexFlags field indexes).unique) ∧
    ∀ b, (indexFlags field indexes).unique = some b →
      ∀ more, (indexFlags field (indexes ++ more)).unique = some b := by
  refine ⟨indexed_indexFlags, fun b => unique_indexFlags_eq_some_iff, unique_indexFlags_eq_none_iff, ?_,
    fun b => unique_indexFlags_append⟩
  rintro before added after rfl hadded
  exact unique_indexFlags_insert hadded field before after

/-- Of two verdicts on a field the first one counts, also with an index over two fields and one without a verdict
between them and in front of them. -/
theorem indexFlags_firstVerdict_conflict :
    (indexFlags "email" [⟨["email"], some false, none⟩, ⟨["email"], some true, none⟩]).unique = some false ∧
    (indexFlags "email" ([⟨["email", "name"], some true, none⟩, ⟨["email"], none, none⟩] ++
      [⟨["email"], some false, none⟩, ⟨["email"], some true, none⟩])).unique = some false := by
  obtain ⟨-, hsome, -, hinsert, -⟩ :=
    indexFlags_firstVerdict "email" [⟨["email"], some false, none⟩, ⟨["email"], some true, none⟩]
  have hfirst := (hsome false).mpr ⟨[], _, _, rfl, ⟨rfl, rfl⟩, by simp⟩
  exact ⟨hfirst, (hinsert [] _ _ rfl (by decide)).trans hfirst⟩

end SchemaReconcile
