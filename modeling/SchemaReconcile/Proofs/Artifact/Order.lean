import Mathlib.Data.List.Basic
import Mathlib.Data.List.Nodup
import Mathlib.Data.List.Perm.Basic
import SchemaReconcile.Artifact.Order

/-!
# The order of shapes keeps the shapes

A visit puts shapes behind the ones that are ordered already: shapes of the model, each under a name that is
not there yet and that is not being visited.  `Added` says this of the shapes that come behind a list, and
visits one after another add up.  When every shape has been visited each name is there, so that the order is
a permutation of the shapes when their names are distinct.
-/

namespace SchemaReconcile.Artifact

variable {shapes ordered added more : List JsonShape} {visiting : List String} {s : JsonShape}

/-- A list has a shape of a name when one of its shapes is called so. -/
theorem hasShape_iff {n : String} : hasShape ordered n ↔ ∃ s ∈ ordered, s.name = n := by
  simp [hasShape]

/-- Two lists behind each other have the shapes of both. -/
theorem hasShape_append {n : String} :
    hasShape (ordered ++ added) n = (hasShape ordered n || hasShape added n) := List.any_append

/-- The shape that is found for a name is one of the shapes. -/
theorem mem_of_shapeOf {n : String} (h : shapeOf shapes n = some s) : s ∈ shapes :=
  List.mem_reverse.mp (List.mem_of_find?_eq_some h)

/-- What visits put behind a list of shapes while shapes of some names are being visited. -/
structure Added (shapes : List JsonShape) (visiting : List String) (ordered added : List JsonShape) :
    Prop where
  /-- They are shapes of the model. -/
  mem : ∀ s ∈ added, s ∈ shapes
  /-- None of them is being visited. -/
  apart : ∀ s ∈ added, s.name ∉ visiting
  /-- None of them was there. -/
  fresh : ∀ s ∈ added, hasShape ordered s.name = false
  /-- Each name comes once. -/
  nodup : (added.map (·.name)).Nodup

namespace Added

/-- Nothing may be added. -/
theorem nil : Added shapes visiting ordered [] := ⟨by simp, by simp, by simp, by simp⟩

/-- What is added in two steps is added in one. -/
theorem append (h : Added shapes visiting ordered added)
    (hmore : Added shapes visiting (ordered ++ added) more) :
    Added shapes visiting ordered (added ++ more) := by
  have hnew : ∀ s ∈ more, hasShape ordered s.name = false ∧ hasShape added s.name = false := fun s hs => by
    simpa [hasShape_append] using hmore.fresh s hs
  refine ⟨?_, ?_, ?_, ?_⟩
  · exact fun s hs => (List.mem_append.mp hs).elim (h.mem s) (hmore.mem s)
  · exact fun s hs => (List.mem_append.mp hs).elim (h.apart s) (hmore.apart s)
  · exact fun s hs => (List.mem_append.mp hs).elim (h.fresh s) fun hs => (hnew s hs).1
  · rw [List.map_append, List.nodup_append']
    refine ⟨h.nodup, hmore.nodup, ?_⟩
    rw [List.disjoint_left]
    rintro n hn hn'
    obtain ⟨s, hs, rfl⟩ := List.mem_map.mp hn
    obtain ⟨s', hs', he⟩ := List.mem_map.mp hn'
    have hnot : ¬ hasShape added s'.name := Bool.not_eq_true _ ▸ (hnew s' hs').2
    exact hnot (hasShape_iff.mpr ⟨s, hs, he.symm⟩)

/-- The shape that is being visited comes last. -/
theorem concat (h : Added shapes (s.name :: visiting) ordered added) (hs : s ∈ shapes)
    (hvisiting : s.name ∉ visiting) (hnew : hasShape ordered s.name = false) :
    Added shapes visiting ordered (added ++ [s]) := by
  have hlater : Added shapes visiting ordered added :=
    ⟨h.mem, fun r hr hv => h.apart r hr (List.mem_cons_of_mem _ hv), h.fresh, h.nodup⟩
  refine hlater.append ⟨by simpa using hs, by simpa using hvisiting, ?_, by simp⟩
  have hadded : hasShape added s.name = false := by
    rw [Bool.eq_false_iff, ne_eq, hasShape_iff]
    rintro ⟨r, hr, hn⟩
    exact h.apart r hr (hn ▸ List.mem_cons_self)
  simp [hasShape_append, hnew, hadded]

/-- Visits one after the other put behind a list what each of them does. -/
theorem exists_foldl {visitOne : List JsonShape → JsonShape → List JsonShape}
    (items : List JsonShape)
    (h : ∀ s ∈ items, ∀ ordered, ∃ added, visitOne ordered s = ordered ++ added ∧
      Added shapes visiting ordered added) (ordered : List JsonShape) :
    ∃ added, items.foldl visitOne ordered = ordered ++ added ∧ Added shapes visiting ordered added := by
  induction items generalizing ordered with
  | nil => exact ⟨[], by simp, nil⟩
  | cons s items ih =>
    obtain ⟨added, heq, hadded⟩ := h s List.mem_cons_self ordered
    obtain ⟨more, hmore, hlater⟩ := ih (fun r hr => h r (List.mem_cons_of_mem _ hr)) (ordered ++ added)
    refine ⟨added ++ more, ?_, hadded.append hlater⟩
    rw [List.foldl_cons, heq, hmore, List.append_assoc]

end Added

/-- What one visit adds; the induction is on the depth, and the shape itself counts as visited below it. -/
theorem exists_added_visit (depth : Nat) (hs : s ∈ shapes) (visiting : List String)
    (ordered : List JsonShape) :
    ∃ added, visit shapes depth visiting ordered s = ordered ++ added ∧
      Added shapes visiting ordered added := by
  induction depth generalizing s visiting ordered with
  | zero => exact ⟨[], by simp [visit], .nil⟩
  | succ depth ih =>
    rw [visit]
    split
    case isTrue => exact ⟨[], by simp, .nil⟩
    case isFalse hnot =>
      obtain ⟨hnew, hvisiting⟩ : hasShape ordered s.name = false ∧ s.name ∉ visiting := by
        simpa using hnot
      -- names that no shape has are left out, so everything nested is a shape of the model
      have hnested : ∀ r ∈ s.nested.filterMap (shapeOf shapes), r ∈ shapes := fun r hr => by
        obtain ⟨n, -, hn⟩ := List.mem_filterMap.mp hr
        exact mem_of_shapeOf hn
      obtain ⟨added, heq, hadded⟩ := Added.exists_foldl (s.nested.filterMap (shapeOf shapes))
        (fun r hr ordered => ih (hnested r hr) (s.name :: visiting) ordered) ordered
      refine ⟨added ++ [s], ?_, hadded.concat hs hvisiting hnew⟩
      simp only [heq, List.append_assoc]

/-- After the visit of a shape its name is there. -/
theorem hasShape_visit (depth : Nat) (ordered : List JsonShape) :
    hasShape (visit shapes (depth + 1) [] ordered s) s.name := by
  rw [visit]
  split
  case isTrue h => simpa using h
  case isFalse => simp [hasShape]

/-- After the visits of several shapes the name of each of them is there. -/
theorem hasShape_foldl_visit (items : List JsonShape) (depth : Nat) (hitems : ∀ s ∈ items, s ∈ shapes)
    (ordered : List JsonShape) (hs : s ∈ items) :
    hasShape (items.foldl (visit shapes (depth + 1) []) ordered) s.name := by
  induction items generalizing ordered with
  | nil => simp at hs
  | cons r items ih =>
    have hlater : ∀ r ∈ items, r ∈ shapes := fun r hr => hitems r (List.mem_cons_of_mem _ hr)
    rcases List.mem_cons.mp hs with rfl | hs
    · obtain ⟨added, heq, -⟩ := Added.exists_foldl items
        (fun r hr ordered => exists_added_visit (depth + 1) (hlater r hr) [] ordered)
        (visit shapes (depth + 1) [] ordered s)
      rw [List.foldl_cons, heq, hasShape_append, hasShape_visit, Bool.true_or]
    · exact ih hlater _ hs

/-- All visits together put the shapes in order behind the empty list. -/
theorem added_inOrder (shapes : List JsonShape) : Added shapes [] [] (inOrder shapes) := by
  obtain ⟨added, heq, hadded⟩ := Added.exists_foldl shapes
    (fun s hs ordered => exists_added_visit (shapes.length + 1) hs [] ordered) []
  rwa [inOrder, heq, List.nil_append]

/-- Shapes of distinct names are put in order, none left out and none twice. -/
theorem inOrder_perm (h : (shapes.map (·.name)).Nodup) : (inOrder shapes).Perm shapes := by
  have hadded := added_inOrder shapes
  refine (List.perm_ext_iff_of_nodup hadded.nodup.of_map h.of_map).mpr fun s => ⟨hadded.mem s, fun hs => ?_⟩
  obtain ⟨r, hr, hn⟩ := hasShape_iff.mp (hasShape_foldl_visit shapes shapes.length (fun _ => id) [] hs)
  obtain rfl : r = s := List.inj_on_of_nodup_map h (hadded.mem r hr) hs hn
  exact hr

end SchemaReconcile.Artifact
