import SchemaReconcile.Proofs.Value.Entries
import SchemaReconcile.Yaml.Object

/-!
# Objects and their values

An object and its value have the same shape, before a change and after it: lists have the values of their items
(`valueWith_list`), and mappings those of their entries, on which the change is made (`valueWith_mapping`).  So a
lookup in the entries of a value is a lookup in those of the object (`entry?_map`), and the shape of a value tells
that of the object (`plain_eq_dict_iff`, `plain_eq_list_iff`, `plain_eq_text_iff`).
-/

namespace SchemaReconcile

namespace Value

variable {α β : Type} {key : Value} {w : α} {entries : List (Value × α)}

/-- Entries with another value for each. -/
def mapEntries (f : α → β) (entries : List (Value × α)) : List (Value × β) :=
  entries.map fun p => (p.1, f p.2)

/-- The value of a key among entries with other values. -/
@[simp] theorem entry?_mapEntries (f : α → β) :
    Value.entry? key (mapEntries f entries) = (Value.entry? key entries).map f := by
  induction entries with
  | nil => rfl
  | cons p rest ih =>
    obtain ⟨k, v⟩ := p
    rw [mapEntries, List.map_cons, Value.entry?, Value.entry?]
    split
    · rfl
    · exact ih

/-- An entry that is put has its other value among the others. -/
theorem mapEntries_putEntry (f : α → β) :
    mapEntries f (putEntry key w entries) = putEntry key (f w) (mapEntries f entries) := by
  induction entries with
  | nil => rfl
  | cons p rest ih =>
    obtain ⟨k, v⟩ := p
    rw [mapEntries, mapEntries, putEntry, List.map_cons, putEntry]
    split
    · rfl
    · exact congrArg _ ih

/-- The values of entries with other values. -/
theorem values_mapEntries (f : α → β) :
    (mapEntries f entries).map (·.2) = (entries.map (·.2)).map f := by
  rw [mapEntries, List.map_map, List.map_map]
  rfl

/-- Text keys are apart among entries with other values when they are apart. -/
theorem textsApart_mapEntries {f : α → β} : TextsApart (mapEntries f entries) ↔ TextsApart entries :=
  List.pairwise_map

end Value

namespace Yaml

variable {change : ℕ → List (Value × Value) → List (Value × Value)} {o : Object} {es : List (Value × Value)}
  {vs : List Value} {t : String}

/-- The values of items are those of each. -/
theorem itemValues_eq_map (items : List Object) : itemValues change items = items.map (Object.valueWith change) := by
  induction items with
  | nil => rfl
  | cons o rest ih => rw [itemValues, ih, List.map_cons]

/-- The values of entries are those of each. -/
theorem entryValues_eq_mapEntries (entries : List (Value × Object)) :
    entryValues change entries = Value.mapEntries (Object.valueWith change) entries := by
  induction entries with
  | nil => rfl
  | cons p rest ih =>
    obtain ⟨k, o⟩ := p
    rw [entryValues, ih]
    rfl

namespace Object

/-- A scalar is its value, whatever is changed. -/
@[simp] theorem valueWith_scalar (s : Scalar) : (scalar s).valueWith change = s := rfl

/-- A set is its value, whatever is changed. -/
@[simp] theorem valueWith_set (items : List Value) : (set items).valueWith change = .set items := rfl

/-- The value of a list has those of its items. -/
@[simp] theorem valueWith_list (items : List Object) :
    (list items).valueWith change = .list (items.map (valueWith change)) := by
  rw [valueWith, itemValues_eq_map]

/-- The value of a tuple has those of its items. -/
@[simp] theorem valueWith_tuple (items : List Object) :
    (tuple items).valueWith change = .tuple (items.map (valueWith change)) := by
  rw [valueWith, itemValues_eq_map]

/-- The value of a mapping has the changed entries. -/
@[simp] theorem valueWith_mapping (place : ℕ) (entries : List (Value × Object)) :
    (mapping place entries).valueWith change =
      .dict (change place (Value.mapEntries (valueWith change) entries)) := by
  rw [valueWith, entryValues_eq_mapEntries]

/-- A scalar is its value. -/
@[simp] theorem plain_scalar (s : Scalar) : (scalar s).plain = s := rfl

/-- A set is its value. -/
@[simp] theorem plain_set (items : List Value) : (set items).plain = .set items := rfl

/-- The value of a list has those of its items. -/
@[simp] theorem plain_list (items : List Object) : (list items).plain = .list (items.map plain) :=
  valueWith_list items

/-- The value of a tuple has those of its items. -/
@[simp] theorem plain_tuple (items : List Object) : (tuple items).plain = .tuple (items.map plain) :=
  valueWith_tuple items

/-- The value of a mapping has the values of its entries. -/
@[simp] theorem plain_mapping (place : ℕ) (entries : List (Value × Object)) :
    (mapping place entries).plain = .dict (Value.mapEntries plain entries) :=
  valueWith_mapping place entries

/-- The object of a mapping is a mapping, also after a change. -/
theorem valueWith_eq_dict_iff :
    o.valueWith change = .dict es ↔
      ∃ place entries, o = mapping place entries ∧ es = change place (Value.mapEntries (valueWith change) entries) := by
  constructor
  · intro h
    cases o with
    | scalar s =>
      have hscalar : (Value.dict es).isScalar = true := h ▸ s.2
      cases hscalar
    | set items => cases h
    | list items => simp at h
    | tuple items => simp at h
    | mapping place entries =>
      rw [valueWith_mapping] at h
      exact ⟨place, entries, rfl, (Value.dict.inj h).symm⟩
  · rintro ⟨place, entries, rfl, rfl⟩
    exact valueWith_mapping place entries

/-- The object of a mapping is a mapping. -/
theorem plain_eq_dict_iff :
    o.plain = .dict es ↔ ∃ place entries, o = mapping place entries ∧ es = Value.mapEntries plain entries :=
  valueWith_eq_dict_iff

/-- The object of a list is a list. -/
theorem plain_eq_list_iff : o.plain = .list vs ↔ ∃ items, o = list items ∧ vs = items.map plain := by
  constructor
  · intro h
    cases o with
    | scalar s =>
      have hscalar : (Value.list vs).isScalar = true := h ▸ s.2
      cases hscalar
    | set items => cases h
    | list items =>
      rw [plain_list] at h
      exact ⟨items, rfl, (Value.list.inj h).symm⟩
    | tuple items => simp at h
    | mapping place entries => simp at h
  · rintro ⟨items, rfl, rfl⟩
    exact plain_list items

/-- The object of a text is the text. -/
theorem plain_eq_text_iff : o.plain = .text t ↔ o = scalar ⟨.text t, rfl⟩ := by
  constructor
  · intro h
    cases o with
    | scalar s => exact congrArg scalar (Subtype.ext h)
    | set items => cases h
    | list items => simp at h
    | tuple items => simp at h
    | mapping place entries => simp at h
  · rintro rfl
    rfl

end Object

end Yaml

end SchemaReconcile
