import SchemaReconcile.Proofs.Results
import SchemaReconcile.Proofs.Yaml.Object
import SchemaReconcile.Yaml.Load

/-!
# Mappings of YAML values

A YAML text may write an entry of a mapping twice, and bring in others by merge keys.  They are put one by one when
the mapping is built, so in the value of a text no mapping has a text as the key of two entries (`Unambiguous`,
`unambiguous_of_loadObject`).  The predicate goes into lists, tuples and the values of mappings, since the mappings that
matter stand inside others; the items of a set are keys, and a mapping is no key.
-/

namespace SchemaReconcile

/-- In no mapping inside a value is a text the key of two entries. -/
inductive Value.Unambiguous : Value → Prop where
  | scalar {v : Value} (h : v.isScalar = true) : v.Unambiguous
  | list {items : List Value} (hitems : ∀ v ∈ items, v.Unambiguous) : (Value.list items).Unambiguous
  | tuple {items : List Value} (hitems : ∀ v ∈ items, v.Unambiguous) : (Value.tuple items).Unambiguous
  | set (items : List Value) : (Value.set items).Unambiguous
  | dict {entries : List (Value × Value)} (hkeys : Value.TextsApart entries)
      (hvalues : ∀ p ∈ entries, p.2.Unambiguous) : (Value.dict entries).Unambiguous

namespace Value.Unambiguous

variable {entries : List (Value × Value)} {w : Value} {key : String}

/-- The text keys of an unambiguous mapping are apart. -/
theorem textsApart (h : (Value.dict entries).Unambiguous) : Value.TextsApart entries := by
  cases h with
  | dict hkeys hvalues => exact hkeys
  | scalar h => cases h

/-- The values of an unambiguous mapping are unambiguous. -/
theorem value (h : (Value.dict entries).Unambiguous) {p : Value × Value} (hp : p ∈ entries) :
    p.2.Unambiguous := by
  cases h with
  | dict hkeys hvalues => exact hvalues p hp
  | scalar h => cases h

/-- The value of a text key of an unambiguous mapping is unambiguous. -/
theorem entry (h : (Value.dict entries).Unambiguous) (hentry : Value.entry? (.text key) entries = some w) :
    w.Unambiguous :=
  h.value (Value.mem_of_entry? hentry)

end Value.Unambiguous

namespace Yaml

open Value (Unambiguous)

/-- A mapping whose entries are put one by one from unambiguous objects is unambiguous. -/
theorem unambiguous_of_foldl {given : List ((Value × Object) × List LevelFault)} {place : ℕ}
    {init : List (Value × Object)} (hgiven : ∀ g ∈ given, g.1.2.plain.Unambiguous)
    (hinit : (Object.mapping place init).plain.Unambiguous) :
    (Object.mapping place
      (given.foldl (fun entries (kv, _) => Value.putEntry kv.1 kv.2 entries) init)).plain.Unambiguous := by
  induction given generalizing init with
  | nil => exact hinit
  | cons g rest ih =>
    obtain ⟨hg, hrest⟩ := List.forall_mem_cons.mp hgiven
    refine ih hrest ?_
    rw [Object.plain_mapping] at hinit ⊢
    rw [Value.mapEntries_putEntry]
    refine .dict (Value.textsApart_putEntry hinit.textsApart) fun p hp => ?_
    rcases Value.mem_putEntry hp with hp | ⟨hvalue, -⟩
    · exact hinit.value hp
    · exact hvalue ▸ hg

/-- A list of unambiguous objects is unambiguous. -/
theorem unambiguous_list {objects : List Object} (h : ∀ o ∈ objects, o.plain.Unambiguous) :
    (Object.list objects).plain.Unambiguous := by
  rw [Object.plain_list]
  refine .list fun w hw => ?_
  obtain ⟨o, ho, rfl⟩ := List.mem_map.mp hw
  exact h o ho

section

variable {fuel level : ℕ} {tag : String}

/-- The object of a sequence is unambiguous. -/
theorem unambiguous_of_build_sequence (ih : ∀ level n, (build fuel level n).1.plain.Unambiguous)
    (items : List Node) : (build (fuel + 1) level (.sequence tag items)).1.plain.Unambiguous := by
  rw [build]
  dsimp only
  split
  · refine unambiguous_list fun o ho => ?_
    obtain ⟨built, hbuilt, rfl⟩ := List.mem_map.mp ho
    obtain ⟨n, -, rfl⟩ := List.mem_map.mp hbuilt
    exact ih _ n
  · split
    · refine unambiguous_list fun o ho => ?_
      obtain ⟨built, hbuilt, rfl⟩ := List.mem_map.mp ho
      obtain ⟨n, -, rfl⟩ := List.mem_map.mp hbuilt
      split
      · next k v hentry =>
        rw [Object.plain_tuple]
        exact .tuple (List.forall_mem_cons.mpr ⟨ih _ k, List.forall_mem_singleton.mpr (ih _ v)⟩)
      · exact .scalar rfl
    · exact .scalar rfl

/-- The object of a mapping is unambiguous. -/
theorem unambiguous_of_build_mapping (ih : ∀ level n, (build fuel level n).1.plain.Unambiguous) (place : ℕ)
    (entries : List (Node × Node)) :
    (build (fuel + 1) level (.mapping place tag entries)).1.plain.Unambiguous := by
  rw [build]
  dsimp only
  split
  · split
    · exact .scalar rfl
    · split
      · refine unambiguous_of_foldl (fun g hg => ?_) (.dict .nil nofun)
        obtain ⟨⟨k, v⟩, -, rfl⟩ := List.mem_map.mp hg
        exact ih _ v
      · exact .set _
  · split
    · split
      · exact .scalar rfl
      · split
        · next s hs => exact .scalar s.2
        · exact .scalar rfl
    · exact .scalar rfl

end

/-- The object of a node is unambiguous. -/
theorem unambiguous_of_build (fuel level : ℕ) (node : Node) : (build fuel level node).1.plain.Unambiguous := by
  induction fuel generalizing level node with
  | zero => exact .scalar rfl
  | succ fuel ih =>
    cases node with
    | enclosing anchor => exact .scalar rfl
    | scalar tag text =>
      rw [build]
      split
      · split
        · next s hs => exact .scalar s.2
        · exact .scalar rfl
      · exact .scalar rfl
    | sequence tag items => exact unambiguous_of_build_sequence ih items
    | mapping place tag entries => exact unambiguous_of_build_mapping ih place entries

/-- The object of a text is unambiguous. -/
theorem unambiguous_of_loadObject {text : String} {o : Object} (h : loadObject text = .ok o) :
    o.plain.Unambiguous := by
  unfold loadObject at h
  split at h
  · cases h
  · obtain rfl := Except.ok.inj h
    exact .scalar rfl
  · next node hnode =>
    dsimp only at h
    split at h
    · cases h
    · obtain rfl := Except.ok.inj h
      exact unambiguous_of_build _ _ node

end Yaml

end SchemaReconcile
