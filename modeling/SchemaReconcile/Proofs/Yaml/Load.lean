import SchemaReconcile.Proofs.Results
import SchemaReconcile.Yaml.Load

/-!
# Faults of YAML values

Apart from a text that is malformed, a text has no object for one of two reasons: the scanner refuses an escape
or a version number, or the text of some node is refused (`loadObject_eq_error`).  The nodes that count are those
in the tree under the document (`Within`), and a mapping has a text where a value mark says so.  Merge keys
bring in entries from deeper in the tree, so they add no node (`refused_of_mergedOf`).
-/

namespace SchemaReconcile.Yaml

/-- The nodes of the tree under a node. -/
inductive Within : Node → Node → Prop where
  | self (n : Node) : Within n n
  | item {tag : String} {items : List Node} {n inner : Node} (hn : n ∈ items) (h : Within n inner) :
      Within (.sequence tag items) inner
  | key {place : ℕ} {tag : String} {entries : List (Node × Node)} {p : Node × Node} {inner : Node}
      (hp : p ∈ entries) (h : Within p.1 inner) : Within (.mapping place tag entries) inner
  | value {place : ℕ} {tag : String} {entries : List (Node × Node)} {p : Node × Node} {inner : Node}
      (hp : p ∈ entries) (h : Within p.2 inner) : Within (.mapping place tag entries) inner

/-- The text of a node is refused: by the reader that its tag asks for, or since the node is a mapping that
stands for the text of a moment. -/
inductive RefusedAt : Node → LoadFault → Prop where
  | read {n : Node} {text : String} {read : String → Except LoadFault Scalar} {fault : LoadFault}
      (htext : n.text? = some text) (hread : scalarReader? n.tag = some read)
      (hfault : read text = .error fault) : RefusedAt n fault
  | moment {place : ℕ} {entries : List (Node × Node)} {text : String} (h : markedText? entries = some text) :
      RefusedAt (.mapping place (coreTag "timestamp") entries) .notText

/-- The text of a node in the tree under a node is refused. -/
def Refused (node : Node) (fault : LoadFault) : Prop :=
  ∃ n, Within node n ∧ RefusedAt n fault

namespace Refused

variable {fault : LoadFault}

/-- What is refused itself is refused. -/
theorem self {n : Node} (h : RefusedAt n fault) : Refused n fault := ⟨n, .self n, h⟩

/-- What is refused in an item is refused in the sequence. -/
theorem item {tag : String} {items : List Node} {n : Node} (hn : n ∈ items) (h : Refused n fault) :
    Refused (.sequence tag items) fault := by
  obtain ⟨inner, hinner, hfault⟩ := h
  exact ⟨inner, .item hn hinner, hfault⟩

/-- What is refused in a key is refused in the mapping. -/
theorem key {place : ℕ} {tag : String} {entries : List (Node × Node)} {p : Node × Node} (hp : p ∈ entries)
    (h : Refused p.1 fault) : Refused (.mapping place tag entries) fault := by
  obtain ⟨inner, hinner, hfault⟩ := h
  exact ⟨inner, .key hp hinner, hfault⟩

/-- What is refused in a value is refused in the mapping. -/
theorem value {place : ℕ} {tag : String} {entries : List (Node × Node)} {p : Node × Node} (hp : p ∈ entries)
    (h : Refused p.2 fault) : Refused (.mapping place tag entries) fault := by
  obtain ⟨inner, hinner, hfault⟩ := h
  exact ⟨inner, .value hp hinner, hfault⟩

/-- No plain text is refused, so a key that lost its value mark is refused as it was before. -/
theorem of_plainKey {n : Node} (h : Refused n.plainKey fault) : Refused n fault := by
  cases n with
  | scalar tag text =>
    by_cases hmark : tag = coreTag "value"
    · rw [hmark] at h
      obtain ⟨inner, hinner, hfault⟩ := h
      have hplain : scalarReader? (coreTag "str") = some textValue := rfl
      cases hinner
      cases hfault with
      | read htext hread hfault =>
        cases hread.symm.trans hplain
        cases hfault
    · rwa [Node.plainKey, if_neg (by simpa using hmark)] at h
  | sequence tag items => exact h
  | mapping place tag entries => exact h
  | enclosing anchor => exact h

/-- What is refused in a lone entry's key or value is refused in the mapping. -/
theorem of_singleEntry {n k v : Node} (hentry : singleEntry? n = some (k, v))
    (h : Refused k fault ∨ Refused v fault) : Refused n fault := by
  unfold singleEntry? at hentry
  split at hentry
  · obtain rfl := Option.some.inj hentry
    rcases h with hkey | hvalue
    · exact .key List.mem_cons_self hkey
    · exact .value List.mem_cons_self hvalue
  · cases hentry

end Refused

/-- Something is refused in a key or a value of entries. -/
def RefusedIn (entries : List (Node × Node)) (fault : LoadFault) : Prop :=
  ∃ p ∈ entries, Refused p.1 fault ∨ Refused p.2 fault

variable {fault : LoadFault}

/-- What is refused in an entry is refused in the mapping. -/
theorem Refused.of_refusedIn {place : ℕ} {tag : String} {entries : List (Node × Node)}
    (h : RefusedIn entries fault) : Refused (.mapping place tag entries) fault := by
  obtain ⟨p, hp, hkey | hvalue⟩ := h
  · exact .key hp hkey
  · exact .value hp hvalue

/-- Entries side by side have what is refused in both. -/
theorem refusedIn_append {a b : List (Node × Node)} :
    RefusedIn (a ++ b) fault ↔ RefusedIn a fault ∨ RefusedIn b fault := by
  simp only [RefusedIn, List.mem_append, or_and_right, exists_or]

/-- One entry in front of others. -/
theorem refusedIn_cons {p : Node × Node} {rest : List (Node × Node)} :
    RefusedIn (p :: rest) fault ↔ (Refused p.1 fault ∨ Refused p.2 fault) ∨ RefusedIn rest fault := by
  simp only [RefusedIn, List.mem_cons, exists_eq_or_imp]

/-! ## Merged entries -/

mutual

/-- Merging within a mapping adds nothing that is refused. -/
theorem refusedIn_of_mergeEntries {entries merged own : List (Node × Node)}
    (h : mergeEntries? entries = some (merged, own)) (hfault : RefusedIn (merged ++ own) fault) :
    RefusedIn entries fault := by
  match entries with
  | [] =>
    obtain ⟨rfl, rfl⟩ := Prod.mk.inj (Option.some.inj h)
    exact hfault
  | (key, value) :: rest =>
    rw [mergeEntries?] at h
    rw [refusedIn_cons]
    split at h
    · obtain ⟨brought, hbrought, h⟩ := Option.bind_eq_some_iff.mp h
      obtain ⟨⟨more, own'⟩, hrest, h⟩ := Option.bind_eq_some_iff.mp h
      obtain ⟨rfl, rfl⟩ := Prod.mk.inj (Option.some.inj h)
      rw [List.append_assoc, refusedIn_append] at hfault
      rcases hfault with hfault | hfault
      · exact .inl (.inr (refused_of_mergedOf hbrought hfault))
      · exact .inr (refusedIn_of_mergeEntries hrest hfault)
    · obtain ⟨⟨merged', own'⟩, hrest, h⟩ := Option.bind_eq_some_iff.mp h
      obtain ⟨rfl, rfl⟩ := Prod.mk.inj (Option.some.inj h)
      rw [refusedIn_append, refusedIn_cons] at hfault
      rcases hfault with hfault | (hkey | hvalue) | hfault
      · exact .inr (refusedIn_of_mergeEntries hrest (refusedIn_append.mpr (.inl hfault)))
      · exact .inl (.inl (.of_plainKey hkey))
      · exact .inl (.inr hvalue)
      · exact .inr (refusedIn_of_mergeEntries hrest (refusedIn_append.mpr (.inr hfault)))

/-- Nothing else is refused in what a node brings into a mapping than in the node. -/
theorem refused_of_mergedOf {node : Node} {entries : List (Node × Node)}
    (h : mergedOf? node = some entries) (hfault : RefusedIn entries fault) : Refused node fault := by
  match node with
  | .mapping place tag inner =>
    rw [mergedOf?] at h
    obtain ⟨⟨merged, own⟩, hinner, rfl⟩ := Option.map_eq_some_iff.mp h
    exact .of_refusedIn (refusedIn_of_mergeEntries hinner hfault)
  | .sequence tag items =>
    rw [mergedOf?] at h
    obtain ⟨n, hn, hrefused⟩ := refused_of_mergedItems h hfault
    exact .item hn hrefused
  | .scalar tag text => cases h
  | .enclosing anchor => cases h

/-- Nothing else is refused in what nodes bring into a mapping than in the nodes. -/
theorem refused_of_mergedItems {items : List Node} {entries : List (Node × Node)}
    (h : mergedItems? items = some entries) (hfault : RefusedIn entries fault) :
    ∃ n ∈ items, Refused n fault := by
  match items with
  | [] =>
    obtain rfl := Option.some.inj h
    obtain ⟨p, hp, -⟩ := hfault
    cases hp
  | .mapping place tag inner :: rest =>
    rw [mergedItems?] at h
    obtain ⟨⟨merged, own⟩, hinner, h⟩ := Option.bind_eq_some_iff.mp h
    obtain ⟨later, hlater, h⟩ := Option.bind_eq_some_iff.mp h
    obtain rfl := Option.some.inj h
    rcases refusedIn_append.mp hfault with hfault | hfault
    · obtain ⟨n, hn, hrefused⟩ := refused_of_mergedItems hlater hfault
      exact ⟨n, List.mem_cons_of_mem _ hn, hrefused⟩
    · exact ⟨_, List.mem_cons_self, .of_refusedIn (refusedIn_of_mergeEntries hinner hfault)⟩
  | .scalar tag text :: rest => cases h
  | .sequence tag inner :: rest => cases h
  | .enclosing anchor :: rest => cases h

end

/-! ## Built values -/

/-- A placeholder has its one fault. -/
theorem mem_faultAt {level l : Nat} {given : LoadFault} (h : (l, fault) ∈ (faultAt level given).2) :
    fault = given :=
  (Prod.mk.inj (List.mem_singleton.mp h)).2

/-- The faults of an entry are those of its key and its value, besides a malformed key. -/
theorem mem_entryFaults {key value : List LevelFault} {isKey : Bool} {level l : ℕ}
    (h : (l, fault) ∈ if isKey then key ++ value else key ++ (level, LoadFault.malformed) :: value)
    (hfault : fault ≠ .malformed) : (l, fault) ∈ key ∨ (l, fault) ∈ value := by
  cases isKey with
  | true => exact List.mem_append.mp h
  | false =>
    refine (List.mem_append.mp h).imp_right fun h => ?_
    rcases List.mem_cons.mp h with heq | h
    · exact absurd (Prod.mk.inj heq).2 hfault
    · exact h

section

variable {fuel level l : ℕ} {tag : String}

/-- A sequence has the faults of its items, or of the entries in them. -/
theorem refused_of_build_sequence {items : List Node}
    (ih : ∀ level l n, (l, fault) ∈ (build fuel level n).2 → Refused n fault)
    (h : (l, fault) ∈ (build (fuel + 1) level (.sequence tag items)).2) (hfault : fault ≠ .malformed) :
    Refused (.sequence tag items) fault := by
  rw [build] at h
  dsimp only at h
  split at h
  · obtain ⟨built, hbuilt, hmem⟩ := List.mem_flatMap.mp h
    obtain ⟨n, hn, rfl⟩ := List.mem_map.mp hbuilt
    exact .item hn (ih _ _ n hmem)
  · split at h
    · obtain ⟨built, hbuilt, hmem⟩ := List.mem_flatMap.mp h
      obtain ⟨n, hn, rfl⟩ := List.mem_map.mp hbuilt
      split at hmem
      · next k v hentry =>
        exact .item hn (.of_singleEntry hentry ((List.mem_append.mp hmem).imp (ih _ _ k) (ih _ _ v)))
      · exact absurd (mem_faultAt hmem) hfault
    · exact absurd (mem_faultAt h) hfault

/-- A mapping has the faults of its keys and values, or its text is refused. -/
theorem refused_of_build_mapping {place : ℕ} {entries : List (Node × Node)}
    (ih : ∀ level l n, (l, fault) ∈ (build fuel level n).2 → Refused n fault)
    (h : (l, fault) ∈ (build (fuel + 1) level (.mapping place tag entries)).2) (hfault : fault ≠ .malformed) :
    Refused (.mapping place tag entries) fault := by
  rw [build] at h
  dsimp only at h
  split at h
  · split at h
    · exact absurd (mem_faultAt h) hfault
    · next merged own hmerged =>
      refine .of_refusedIn (refusedIn_of_mergeEntries hmerged ?_)
      obtain ⟨built, hbuilt, hmem⟩ := List.mem_flatMap.mp h
      obtain ⟨⟨k, v⟩, hp, rfl⟩ := List.mem_map.mp hbuilt
      exact ⟨(k, v), hp, (mem_entryFaults hmem hfault).imp (ih _ _ k) (ih _ _ v)⟩
  · split at h
    · next read text hread hmarked =>
      split at h
      · next hmoment =>
        obtain rfl := mem_faultAt h
        obtain rfl := eq_of_beq hmoment
        exact .self (.moment hmarked)
      · split at h
        · cases h
        · next given hgiven =>
          obtain rfl := mem_faultAt h
          exact .self (.read hmarked hread hgiven)
    · exact absurd (mem_faultAt h) hfault

/-- Every fault of a built object but a malformed one is that of a refused text. -/
theorem refused_of_build {node : Node} (h : (l, fault) ∈ (build fuel level node).2)
    (hfault : fault ≠ .malformed) : Refused node fault := by
  induction fuel generalizing level l node with
  | zero => exact absurd (mem_faultAt h) hfault
  | succ fuel ih =>
    cases node with
    | enclosing anchor => cases h
    | scalar tag text =>
      rw [build] at h
      split at h
      · next read hread =>
        split at h
        · cases h
        · next given hgiven =>
          obtain rfl := mem_faultAt h
          exact .self (.read rfl hread hgiven)
      · exact absurd (mem_faultAt h) hfault
    | sequence tag items => exact refused_of_build_sequence (fun _ _ _ => ih) h hfault
    | mapping place tag entries => exact refused_of_build_mapping (fun _ _ _ => ih) h hfault

end

/-- The fault of a text: malformed, or of the scanner, or of a refused text in it. -/
theorem loadObject_eq_error {text : String} (h : loadObject text = .error fault) (hfault : fault ≠ .malformed) :
    (∃ source, readNode text = .error source ∧ fault = source.toLoadFault) ∨
      ∃ node, readNode text = .ok (some node) ∧ Refused node fault := by
  unfold loadObject at h
  split at h
  · next source hsource => exact .inl ⟨source, hsource, (Except.error.inj h).symm⟩
  · cases h
  · next node hnode =>
    dsimp only at h
    split at h
    · next given hgiven =>
      obtain rfl := Except.error.inj h
      unfold firstFault? at hgiven
      split at hgiven
      · cases hgiven
      · obtain ⟨⟨l, found⟩, hfound, rfl⟩ := Option.map_eq_some_iff.mp hgiven
        exact .inr ⟨node, hnode, refused_of_build (List.mem_of_find?_eq_some hfound) hfault⟩
    · cases h

end SchemaReconcile.Yaml
