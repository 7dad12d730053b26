import Mathlib.Data.List.Infix
import Mathlib.Logic.Relation
import SchemaReconcile.Proofs.Artifact.Order
import SchemaReconcile.Proofs.Results

/-!
# Nested shapes come first

A visit is bounded in its depth.  `Visits` says what visits without a bound do, and each bound above the number of
the shapes that are not being visited gives the same (`visits_foldl`): a visit goes deeper only into a shape that is
not being visited, and then there is one less of these.  So the order of shapes is what the unbounded visits end with,
and they end with nothing else (`Visits.unique`).

A shape is put behind the shapes that it nests, except those that are being visited.  The shapes being visited are a
path to the one that is visited now (`Pending`), so a nested shape that is left out leads back to the shape that nests
it.  `Settled` says that of the shapes that are ordered, and visits keep it.
-/

namespace SchemaReconcile.Artifact

variable {shapes ordered result items inner : List JsonShape} {visiting : List String} {s r a b : JsonShape}

/-! ## Nesting -/

/-- A shape of a list nests a shape of the list. -/
structure Nests (shapes : List JsonShape) (a b : JsonShape) : Prop where
  outer : a ∈ shapes
  inner : b ∈ shapes
  named : b.name ∈ a.nested

/-- A shape leads to another through one nesting or more. -/
def Reaches (shapes : List JsonShape) : JsonShape → JsonShape → Prop := Relation.TransGen (Nests shapes)

/-- A shape reaches those that it nests. -/
theorem Nests.reaches (h : Nests shapes a b) : Reaches shapes a b := .single h

/-- The shapes that a visit goes on with are those that the shape nests. -/
theorem nests_of_mem (hs : s ∈ shapes) (hr : r ∈ s.nested.filterMap (shapeOf shapes)) : Nests shapes s r := by
  obtain ⟨name, hname, hfound⟩ := List.mem_filterMap.mp hr
  have hr' : r.name = name := by simpa using List.find?_some hfound
  exact ⟨hs, mem_of_shapeOf hfound, hr' ▸ hname⟩

/-- A shape is found by its name when names are different. -/
theorem shapeOf_name (h : (shapes.map (·.name)).Nodup) (hs : s ∈ shapes) : shapeOf shapes s.name = some s := by
  have hreverse : (shapes.reverse.map (·.name)).Nodup := by
    rw [List.map_reverse]
    exact List.nodup_reverse.mpr h
  exact find?_of_nodup (·.name) hreverse (List.mem_reverse.mpr hs)

/-- When names are different, a visit goes on with all shapes that the shape nests. -/
theorem mem_of_nests (h : (shapes.map (·.name)).Nodup) (hnests : Nests shapes s r) :
    r ∈ s.nested.filterMap (shapeOf shapes) :=
  List.mem_filterMap.mpr ⟨r.name, hnests.named, shapeOf_name h hnests.inner⟩

/-! ## Visits without a bound -/

/-- Visits of shapes, one after another, lead from ordered shapes to ordered shapes.  A shape that is ordered or being
visited is passed over; any other comes behind what the visits of its nested shapes lead to. -/
inductive Visits (shapes : List JsonShape) :
    List String → List JsonShape → List JsonShape → List JsonShape → Prop
  | done {visiting : List String} {ordered : List JsonShape} : Visits shapes visiting ordered [] ordered
  | pass {visiting : List String} {ordered items result : List JsonShape} {s : JsonShape}
      (hknown : hasShape ordered s.name = true ∨ s.name ∈ visiting)
      (hrest : Visits shapes visiting ordered items result) :
      Visits shapes visiting ordered (s :: items) result
  | enter {visiting : List String} {ordered inner items result : List JsonShape} {s : JsonShape}
      (hnew : ¬ (hasShape ordered s.name = true ∨ s.name ∈ visiting))
      (hnested : Visits shapes (s.name :: visiting) ordered (s.nested.filterMap (shapeOf shapes)) inner)
      (hrest : Visits shapes visiting (inner ++ [s]) items result) :
      Visits shapes visiting ordered (s :: items) result

namespace Visits

/-- Visits end in one way. -/
theorem unique {result' : List JsonShape} (h : Visits shapes visiting ordered items result)
    (h' : Visits shapes visiting ordered items result') : result = result' := by
  induction h generalizing result' with
  | done =>
    cases h'
    rfl
  | pass hknown _ ih =>
    cases h' with
    | pass _ hrest => exact ih hrest
    | enter hnew _ _ => exact absurd hknown hnew
  | enter hnew _ _ ihnested ihrest =>
    cases h' with
    | pass hknown _ => exact absurd hknown hnew
    | enter _ hnested hrest =>
      obtain rfl := ihnested hnested
      exact ihrest hrest

/-- Visits put shapes behind the ordered ones. -/
theorem isPrefix (h : Visits shapes visiting ordered items result) : ordered <+: result := by
  induction h with
  | done => exact List.prefix_rfl
  | pass _ _ ih => exact ih
  | enter _ _ _ ihnested ihrest => exact (ihnested.trans (List.prefix_append _ _)).trans ihrest

/-- After visits each shape is ordered, or it is being visited. -/
theorem covers (h : Visits shapes visiting ordered items result) (hs : s ∈ items) :
    hasShape result s.name = true ∨ s.name ∈ visiting := by
  -- what is ordered before some visits is so behind them
  have hkept : ∀ {ordered result : List JsonShape} {name : String}, ordered <+: result →
      hasShape ordered name = true → hasShape result name = true := by
    rintro ordered _ name ⟨more, rfl⟩ hname
    rw [hasShape_append, hname, Bool.true_or]
  induction h with
  | done => cases hs
  | pass hknown hrest ih =>
    rcases List.mem_cons.mp hs with rfl | hs
    · exact hknown.imp_left (hkept hrest.isPrefix)
    · exact ih hs
  | enter _ _ hrest _ ihrest =>
    rcases List.mem_cons.mp hs with rfl | hs
    · exact .inl (hkept hrest.isPrefix (hasShape_iff.mpr ⟨s, by simp, rfl⟩))
    · exact ihrest hs

end Visits

/-- The shapes that are not being visited. -/
def unvisited (shapes : List JsonShape) (visiting : List String) : List JsonShape :=
  shapes.filter fun s => !visiting.contains s.name

/-- When a shape is visited, there is one shape less that is not. -/
theorem length_unvisited_lt (hs : s ∈ shapes) (hnew : s.name ∉ visiting) :
    (unvisited shapes (s.name :: visiting)).length < (unvisited shapes visiting).length := by
  have hmem : s ∈ unvisited shapes visiting := List.mem_filter.mpr ⟨hs, by simpa using hnew⟩
  have hsub : unvisited shapes (s.name :: visiting) =
      (unvisited shapes visiting).filter fun r => !(r.name == s.name) := by
    rw [unvisited, unvisited, List.filter_filter]
    refine List.filter_congr fun r _ => ?_
    rw [List.contains_cons, Bool.not_or]
  rw [hsub]
  exact List.length_filter_lt_length_iff_exists.mpr ⟨s, hmem, by simp⟩

/-- With a bound above the number of the shapes that are not being visited, visits do what they do without one.  The
induction is on the bound, and inside it along the shapes to be visited. -/
theorem visits_foldl (depth : ℕ) (hdepth : (unvisited shapes visiting).length < depth)
    (hitems : ∀ s ∈ items, s ∈ shapes) :
    Visits shapes visiting ordered items (items.foldl (visit shapes depth visiting) ordered) := by
  induction depth generalizing visiting ordered items with
  | zero => exact absurd hdepth (Nat.not_lt_zero _)
  | succ depth ihdepth =>
    induction items generalizing ordered with
    | nil => exact .done
    | cons s items ihitems =>
      obtain ⟨hs, hrest⟩ := List.forall_mem_cons.mp hitems
      have hcond : (hasShape ordered s.name || visiting.contains s.name) = true ↔
          (hasShape ordered s.name = true ∨ s.name ∈ visiting) := by
        rw [Bool.or_eq_true, List.contains_iff_mem]
      rw [List.foldl_cons, visit]
      split
      case isTrue hknown => exact .pass (hcond.mp hknown) (ihitems hrest)
      case isFalse hknown =>
        have hnew := fun h => hknown (hcond.mpr h)
        have hless := length_unvisited_lt hs fun h => hnew (.inr h)
        have hbound : (unvisited shapes (s.name :: visiting)).length < depth := by omega
        exact .enter hnew (ihdepth hbound fun r hr => (nests_of_mem hs hr).inner) (ihitems hrest)

/-- The order of shapes is what the visits of all shapes lead to. -/
theorem visits_inOrder (shapes : List JsonShape) : Visits shapes [] [] shapes (inOrder shapes) := by
  have hbound : (unvisited shapes []).length < shapes.length + 1 :=
    Nat.lt_succ_of_le (List.length_filter_le _ _)
  exact visits_foldl _ hbound fun _ => id

/-! ## The order of nested shapes -/

/-- The ordered shapes are some of a list.  What an ordered shape nests comes before it or leads back to it. -/
structure Settled (shapes ordered : List JsonShape) : Prop where
  mem : ∀ a ∈ ordered, a ∈ shapes
  nested : ∀ a ∈ ordered, ∀ b, Nests shapes a b → [b, a].Sublist ordered ∨ Reaches shapes b a

/-- The shapes being visited lead to those that are to be visited. -/
def Pending (shapes : List JsonShape) (visiting : List String) (items : List JsonShape) : Prop :=
  ∀ v ∈ shapes, v.name ∈ visiting → ∀ s ∈ items, Reaches shapes v s

/-- Inside the visit of a shape, this shape and those being visited lead to what it nests. -/
theorem Pending.enter (hnames : (shapes.map (·.name)).Nodup) (h : Pending shapes visiting (s :: items))
    (hs : s ∈ shapes) : Pending shapes (s.name :: visiting) (s.nested.filterMap (shapeOf shapes)) := by
  intro v hv hname r hr
  have hnests := nests_of_mem hs hr
  rcases List.mem_cons.mp hname with hname | hname
  · obtain rfl : v = s := List.inj_on_of_nodup_map hnames hv hs hname
    exact hnests.reaches
  · exact (h v hv hname s List.mem_cons_self).tail hnests

/-- A shape comes behind ordered shapes, when each shape that it nests is ordered or being visited. -/
theorem Settled.concat (hnames : (shapes.map (·.name)).Nodup) (h : Settled shapes inner) (hs : s ∈ shapes)
    (hpending : Pending shapes visiting (s :: items))
    (hcovers : ∀ b, Nests shapes s b → hasShape inner b.name = true ∨ b.name ∈ s.name :: visiting) :
    Settled shapes (inner ++ [s]) := by
  constructor
  · intro a ha
    rcases List.mem_append.mp ha with ha | ha
    · exact h.mem a ha
    · exact List.mem_singleton.mp ha ▸ hs
  · intro a ha b hnests
    rcases List.mem_append.mp ha with ha | ha
    · exact (h.nested a ha b hnests).imp_left fun hsub => hsub.trans (List.sublist_append_left _ _)
    · obtain rfl := List.mem_singleton.mp ha
      rcases hcovers b hnests with hordered | hvisiting
      · obtain ⟨r, hr, hname⟩ := hasShape_iff.mp hordered
        obtain rfl : r = b := List.inj_on_of_nodup_map hnames (h.mem r hr) hnests.inner hname
        have hbefore : [r].Sublist inner := List.singleton_sublist.mpr hr
        exact .inl (hbefore.append (List.Sublist.refl [a]))
      · rcases List.mem_cons.mp hvisiting with hself | hvisiting
        · obtain rfl : b = a := List.inj_on_of_nodup_map hnames hnests.inner hs hself
          exact .inr hnests.reaches
        · exact .inr (hpending b hnests.inner hvisiting a List.mem_cons_self)

/-- Visits keep the order of nested shapes. -/
theorem Visits.settled (hnames : (shapes.map (·.name)).Nodup) (h : Visits shapes visiting ordered items result)
    (hitems : ∀ s ∈ items, s ∈ shapes) (hpending : Pending shapes visiting items)
    (hsettled : Settled shapes ordered) : Settled shapes result := by
  induction h with
  | done => exact hsettled
  | pass _ _ ih =>
    exact ih (fun s hs => hitems s (List.mem_cons_of_mem _ hs))
      (fun v hv hname s hs => hpending v hv hname s (List.mem_cons_of_mem _ hs)) hsettled
  | @enter visiting ordered inner items result s hnew hnested _ ihnested ihrest =>
    obtain ⟨hs, hrest⟩ := List.forall_mem_cons.mp hitems
    have hinner : Settled shapes inner :=
      ihnested (fun r hr => (nests_of_mem hs hr).inner) (hpending.enter hnames hs) hsettled
    refine ihrest hrest (fun v hv hname r hr => hpending v hv hname r (List.mem_cons_of_mem _ hr)) ?_
    exact hinner.concat hnames hs hpending fun b hnests => hnested.covers (mem_of_nests hnames hnests)

/-- Shapes of different names are put in the order that unbounded visits end with.  It has every shape once, and what
a shape nests comes before it or leads back to it. -/
theorem inOrder_nests (h : (shapes.map (·.name)).Nodup) :
    (∀ result, Visits shapes [] [] shapes result ↔ result = inOrder shapes) ∧
    (inOrder shapes).Perm shapes ∧
    ∀ a b, Nests shapes a b → [b, a].Sublist (inOrder shapes) ∨ Reaches shapes b a := by
  have hvisits := visits_inOrder shapes
  have hpending : Pending shapes [] shapes := fun _ _ hname => absurd hname List.not_mem_nil
  have hnone : Settled shapes [] :=
    ⟨fun _ hnil => absurd hnil List.not_mem_nil, fun _ hnil => absurd hnil List.not_mem_nil⟩
  have hsettled : Settled shapes (inOrder shapes) := hvisits.settled h (fun _ => id) hpending hnone
  have hperm := inOrder_perm h
  refine ⟨fun result => ⟨fun hresult => hresult.unique hvisits, ?_⟩, hperm, fun a b hnests => ?_⟩
  · rintro rfl
    exact hvisits
  · exact hsettled.nested a (hperm.mem_iff.mpr hnests.outer) b hnests

/-- Shapes that nest each other, one that nests itself, and one that nests a shape that is not there. -/
def tangledShapes : List JsonShape :=
  [ { name := "Page", fields := [⟨"notes", .shape "Note", true, true⟩, ⟨"origin", .shape "Origin", true, false⟩] },
    { name := "Note", fields := [⟨"page", .shape "Page", true, false⟩, ⟨"thread", .shape "Thread", true, false⟩] },
    { name := "Thread", fields := [⟨"replies", .shape "Thread", true, true⟩] },
    { name := "Origin", fields := [⟨"place", .shape "Place", true, false⟩] } ]

/-- The tangled shapes are put in order. -/
theorem inOrder_nests_tangledShapes :
    (tangledShapes.map (·.name)).Nodup ∧
    (inOrder tangledShapes).map (·.name) = ["Thread", "Note", "Origin", "Page"] ∧
    (inOrder tangledShapes).Perm tangledShapes ∧
    ∀ a b, Nests tangledShapes a b → [b, a].Sublist (inOrder tangledShapes) ∨ Reaches tangledShapes b a := by
  have hnames : (tangledShapes.map (·.name)).Nodup := by decide
  obtain ⟨-, hperm, hnested⟩ := inOrder_nests hnames
  exact ⟨hnames, by decide, hperm, hnested⟩

end SchemaReconcile.Artifact
