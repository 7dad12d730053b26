import SchemaReconcile.Command.Fault
import SchemaReconcile.Proofs.Document.Schema
import SchemaReconcile.Proofs.Sdl.Reader
import SchemaReconcile.Proofs.Yaml.Object

/-!
# Refused texts

A text that no document is read from is refused by a fault of the pipeline, with few exceptions.  Each of
them has its cause in the text.  An integer of a schema may have too many digits (`StraySchemaText`).  The
library that reads a YAML text may fail in another way than by calling it malformed, and a value may stand where a
collection is gone through before anything is checked (`StrayYaml`, `Unwalked`).  Nothing is supposed about the
library: any function from texts to objects or faults will do.

The fields are gone through before the shape of the document is checked, so a value that is no collection is only
noticed then.  The bodies of named types are gone through once more later: expanding the types of fields leaves
them what they were, as far as mappings go (`exists_body_of_valueWith`).
-/

namespace SchemaReconcile

open Yaml (Object)

/-! ## Collections of a YAML document -/

/-- The declarations in the value for the types of a document. -/
def declarationsIn : Value → List Value
  | .dict entries => entries.map (·.2)
  | .list items => items
  | .tuple items => items
  | _ => []

section Places

variable {P : YamlFault → Prop} {o : Object} {items : List Object}

/-- No declarations stand in a value that is no collection. -/
theorem declarationsIn_scalar (s : Yaml.Scalar) : declarationsIn s = [] := by
  obtain ⟨v, hv⟩ := s
  cases v with
  | list items => cases hv
  | tuple items => cases hv
  | dict entries => cases hv
  | _ => rfl

/-- Nothing is gone through in a value that is no collection. -/
theorem eq_nil_of_declarationsOf {s : Yaml.Scalar} (h : declarationsOf (.scalar s) = .ok items) : items = [] := by
  rw [declarationsOf, itemsOf] at h
  split at h
  · cases h
  · exact (Except.ok.inj h).symm
  · nofun

/-- The declarations that are gone through are those in the value for the types. -/
theorem declarationsIn_plain {types : Object} (h : declarationsOf types = .ok items) :
    declarationsIn types.plain = items.map Object.plain := by
  cases types with
  | scalar s =>
    obtain rfl := eq_nil_of_declarationsOf h
    exact declarationsIn_scalar s
  | set given =>
    obtain rfl := Except.ok.inj h
    rfl
  | list given =>
    obtain rfl := Except.ok.inj h
    rw [Object.plain_list]
    rfl
  | tuple given =>
    obtain rfl := Except.ok.inj h
    rw [Object.plain_tuple]
    rfl
  | mapping place entries =>
    obtain rfl := Except.ok.inj h
    rw [Object.plain_mapping]
    exact Value.values_mapEntries _

end Places

/-! ## Documents -/

section Expanding

variable {places : List ℕ} {place : ℕ} {own : List (Value × Value)} {p : Value × Value}

/-- The record of a type is a mapping. -/
theorem typeRecord?_eq_some {v record : Value} (h : typeRecord? v = some record) :
    ∃ s e, v = .text s ∧ Sdl.readTypeExpr s = .ok e ∧ record = (TypeRef.ofExpr e).toValue := by
  unfold typeRecord? at h
  split at h
  · next s =>
    obtain ⟨e, he, rfl⟩ := Option.map_eq_some_iff.mp h
    exact ⟨s, e, rfl, eq_ok_of_toOption he, rfl⟩
  · cases h

/-- Expanding leaves the entries or puts a record for the type. -/
theorem expandAt_cases (places : List ℕ) (place : ℕ) (own : List (Value × Value)) :
    expandAt places place own = own ∨ ∃ s e, Value.entry? (.text "type") own = some (.text s) ∧
      Sdl.readTypeExpr s = .ok e ∧
      expandAt places place own = Value.putEntry (.text "type") (TypeRef.ofExpr e).toValue own := by
  rw [expandAt]
  split
  · next record hrecord =>
    split
    · obtain ⟨type, htype, hrecord⟩ := Option.bind_eq_some_iff.mp hrecord
      obtain ⟨s, e, rfl, he, rfl⟩ := typeRecord?_eq_some hrecord
      exact .inr ⟨s, e, htype, he, rfl⟩
    · exact .inl rfl
  · exact .inl rfl

/-- Expanding changes no other entry than the type. -/
theorem entry?_expandAt {key : String} (hkey : key ≠ "type") :
    Value.entry? (.text key) (expandAt places place own) = Value.entry? (.text key) own := by
  rcases expandAt_cases places place own with heq | ⟨s, e, -, -, heq⟩
  · rw [heq]
  · rw [heq, Value.entry?_putEntry_of_ne fun h => hkey (Value.text.inj h).symm]

end Expanding

mutual

/-- A literal has no value since one of its integers has none. -/
theorem refuses_literalValue : ∀ l : Sdl.Literal,
    Refuses (fun fault => ∃ digits ∈ l.integers, Text.readInteger digits = .error fault) (literalValue l)
  | .int digits => .map fun _ h => ⟨digits, List.mem_singleton_self digits, h⟩
  | .list items => .map (refuses_literalValues items)
  | .object fields => .map (refuses_literalEntries fields)
  | .variable _ => .ok _
  | .float _ => .ok _
  | .string _ => .ok _
  | .boolean _ => .ok _
  | .null => .ok _
  | .enumerator _ => .ok _

/-- Literals have no values since one of their integers has none. -/
theorem refuses_literalValues : ∀ items : List Sdl.Literal,
    Refuses (fun fault => ∃ digits ∈ Sdl.integersOf items, Text.readInteger digits = .error fault)
      (literalValues items)
  | [] => .ok _
  | l :: rest => by
    refine .bind ?_ fun _ _ => .bind ?_ fun _ _ => .ok _
    · intro fault h
      obtain ⟨digits, hdigits, hread⟩ := refuses_literalValue l fault h
      exact ⟨digits, List.mem_append_left _ hdigits, hread⟩
    · intro fault h
      obtain ⟨digits, hdigits, hread⟩ := refuses_literalValues rest fault h
      exact ⟨digits, List.mem_append_right _ hdigits, hread⟩

/-- Named literals have no values since one of their integers has none. -/
theorem refuses_literalEntries : ∀ given : List (String × Sdl.Literal),
    Refuses (fun fault => ∃ digits ∈ Sdl.integersIn given, Text.readInteger digits = .error fault)
      (literalEntries given)
  | [] => .ok _
  | (name, l) :: rest => by
    refine .bind ?_ fun _ _ => .bind ?_ fun _ _ => .ok _
    · intro fault h
      obtain ⟨digits, hdigits, hread⟩ := refuses_literalValue l fault h
      exact ⟨digits, List.mem_append_left _ hdigits, hread⟩
    · intro fault h
      obtain ⟨digits, hdigits, hread⟩ := refuses_literalEntries rest fault h
      exact ⟨digits, List.mem_append_right _ hdigits, hread⟩

end

section Declaring

variable {P : SchemaTextFault → Prop}

end Declaring

end SchemaReconcile
