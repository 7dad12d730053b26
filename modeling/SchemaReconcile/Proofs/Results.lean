import Mathlib.Data.List.Forall2
import Mathlib.Data.List.Nodup
import SchemaReconcile.Progress

/-!
# Successful results

A computation that may fail succeeds exactly when its steps do.  `bind_eq_ok` opens one step,
`mapM_eq_ok_iff` a list of them, and `Progress.of_eq_iff` a list of steps whose results are kept up to
the first fault.  Lists of results are related to the lists that they come from item by item.
-/

namespace SchemaReconcile

variable {α β ε : Type}

/-- A sequence of two steps succeeds when both do. -/
theorem bind_eq_ok {x : Except ε α} {f : α → Except ε β} {b : β} :
    (x >>= f) = .ok b ↔ ∃ a, x = .ok a ∧ f a = .ok b := by
  cases x with
  | error e => simp [bind, Except.bind]
  | ok a => simp [bind, Except.bind]

/-- A function of a result succeeds when the result is there. -/
theorem map_eq_ok {f : α → β} {x : Except ε α} {b : β} : f <$> x = .ok b ↔ ∃ a, x = .ok a ∧ f a = b := by
  cases x with
  | error e => simp [Functor.map, Except.map]
  | ok a => simp [Functor.map, Except.map]

/-- A result under another name for its fault. -/
theorem mapError_eq_ok {ε' : Type} {f : ε → ε'} {x : Except ε α} {a : α} : x.mapError f = .ok a ↔ x = .ok a := by
  cases x with
  | error e => simp [Except.mapError]
  | ok b => simp [Except.mapError]

/-- A step that is taken for every item succeeds when it does for each. -/
theorem mapM_eq_ok_iff {f : α → Except ε β} {xs : List α} {ys : List β} :
    xs.mapM f = .ok ys ↔ List.Forall₂ (fun x y => f x = .ok y) xs ys := by
  induction xs generalizing ys with
  | nil =>
    rw [List.mapM_nil, List.forall₂_nil_left_iff]
    exact ⟨fun h => (Except.ok.inj h).symm, fun h => h ▸ rfl⟩
  | cons x xs ih =>
    rw [List.mapM_cons, List.forall₂_cons_left_iff, bind_eq_ok]
    constructor
    · rintro ⟨y, hy, h⟩
      obtain ⟨rest, hrest, h⟩ := bind_eq_ok.mp h
      exact ⟨y, rest, hy, ih.mp hrest, (Except.ok.inj h).symm⟩
    · rintro ⟨y, rest, hy, hrest, rfl⟩
      exact ⟨y, hy, bind_eq_ok.mpr ⟨rest, ih.mpr hrest, rfl⟩⟩

/-- A result that is known as an option. -/
theorem eq_ok_of_toOption {x : Except ε α} {a : α} (h : x.toOption = some a) : x = .ok a := by
  cases x with
  | error e => cases h
  | ok b => exact congrArg _ (Option.some.inj h)

/-- A result that is known as an option, beside a state. -/
theorem eq_mk_ok_of_toOption {σ : Type} {x : σ × Except ε α} {a : α} (h : x.2.toOption = some a) :
    x = (x.1, .ok a) :=
  Prod.ext rfl (eq_ok_of_toOption h)

/-- Steps that succeed on every item give the list of their results. -/
theorem mapM_eq_ok_map {f : α → Except ε β} {g : α → β} {xs : List α}
    (h : ∀ x ∈ xs, f x = .ok (g x)) : xs.mapM f = .ok (xs.map g) := by
  rw [mapM_eq_ok_iff, List.forall₂_map_right_iff, List.forall₂_same]
  exact h

/-- A loop whose steps only fail or go on ends when each of them goes on. -/
theorem forIn_eq_ok_iff {f : α → Unit → Except ε (ForInStep Unit)} {xs : List α}
    (hstep : ∀ x ∈ xs, ∀ step, f x () = .ok step → step = .yield ()) :
    forIn xs () f = .ok () ↔ ∀ x ∈ xs, f x () = .ok (.yield ()) := by
  induction xs with
  | nil => exact iff_of_true rfl (by simp)
  | cons x xs ih =>
    obtain ⟨hx, hxs⟩ := List.forall_mem_cons.mp hstep
    rw [List.forIn_cons, List.forall_mem_cons, ← ih hxs, bind_eq_ok]
    constructor
    · rintro ⟨step, hfx, hrest⟩
      obtain rfl := hx step hfx
      exact ⟨hfx, hrest⟩
    · rintro ⟨hfx, hrest⟩
      exact ⟨.yield (), hfx, hrest⟩

/-- A loop of checks ends when each item passes. -/
theorem forIn_check_eq_ok_iff {check : α → Except ε Unit} {xs : List α} :
    (forIn xs () fun x _ => check x >>= fun _ => pure (ForInStep.yield ())) = Except.ok () ↔
      ∀ x ∈ xs, check x = .ok () := by
  have hpass : ∀ x step, (check x >>= fun _ => pure (ForInStep.yield ())) = Except.ok step ↔
      check x = .ok () ∧ step = .yield () := by
    intro x step
    rw [bind_eq_ok]
    constructor
    · rintro ⟨⟨⟩, hx, hstep⟩
      exact ⟨hx, (Except.ok.inj hstep).symm⟩
    · rintro ⟨hx, rfl⟩
      exact ⟨(), hx, rfl⟩
  rw [forIn_eq_ok_iff fun x _ step hx => ((hpass x step).mp hx).2]
  simp only [hpass, and_true]

/-! ## Related lists -/

/-- Everything on the left of two related lists is related to something on the right. -/
theorem exists_right_of_forall₂ {R : α → β → Prop} {xs : List α} {ys : List β}
    (h : List.Forall₂ R xs ys) {x : α} (hx : x ∈ xs) : ∃ y ∈ ys, R x y := by
  induction h with
  | nil => cases hx
  | cons hhead _ ih =>
    rcases List.mem_cons.mp hx with rfl | hx
    · exact ⟨_, List.mem_cons_self, hhead⟩
    · obtain ⟨y, hy, hR⟩ := ih hx
      exact ⟨y, List.mem_cons_of_mem _ hy, hR⟩

/-- Everything on the right of two related lists is related to something on the left. -/
theorem exists_left_of_forall₂ {R : α → β → Prop} {xs : List α} {ys : List β}
    (h : List.Forall₂ R xs ys) {y : β} (hy : y ∈ ys) : ∃ x ∈ xs, R x y :=
  exists_right_of_forall₂ h.flip hy

/-- What steps collect is in what they collect together. -/
theorem mem_flatten_of_mapM {f : α → Except ε (List β)} {xs : List α} {collected : List (List β)}
    {x : α} {ys : List β} {y : β} (h : xs.mapM f = .ok collected) (hx : x ∈ xs) (hfx : f x = .ok ys)
    (hy : y ∈ ys) : y ∈ collected.flatten := by
  obtain ⟨ys', hmem, hfx'⟩ := exists_right_of_forall₂ (mapM_eq_ok_iff.mp h) hx
  obtain rfl := Except.ok.inj (hfx.symm.trans hfx')
  exact List.mem_flatten_of_mem hmem hy

/-- What stands at a place of a list is related to what stands at this place of a related list. -/
theorem exists_getElem?_of_forall₂ {R : α → β → Prop} {xs : List α} {ys : List β}
    (h : List.Forall₂ R xs ys) {i : ℕ} {x : α} (hx : xs[i]? = some x) : ∃ y, ys[i]? = some y ∧ R x y := by
  obtain ⟨hi, rfl⟩ := List.getElem?_eq_some_iff.mp hx
  have hi' : i < ys.length := h.length_eq ▸ hi
  exact ⟨ys[i], List.getElem?_eq_getElem hi', h.get hi hi'⟩

/-- Related lists are related in another way where their items are. -/
theorem forall₂_imp_of_mem {R S : α → β → Prop} {xs : List α} {ys : List β}
    (h : List.Forall₂ R xs ys) (hRS : ∀ x ∈ xs, ∀ y ∈ ys, R x y → S x y) : List.Forall₂ S xs ys := by
  induction h with
  | nil => exact .nil
  | cons hhead _ ih =>
    exact .cons (hRS _ List.mem_cons_self _ List.mem_cons_self hhead)
      (ih fun x hx y hy => hRS x (List.mem_cons_of_mem _ hx) y (List.mem_cons_of_mem _ hy))

/-- Related lists have the same names where related items do. -/
theorem map_eq_map_of_forall₂ {γ : Type} {R : α → β → Prop} {f : α → γ} {g : β → γ}
    {xs : List α} {ys : List β} (h : List.Forall₂ R xs ys) (hR : ∀ x y, R x y → g y = f x) :
    ys.map g = xs.map f := by
  induction h with
  | nil => rfl
  | cons hhead _ ih => rw [List.map_cons, List.map_cons, hR _ _ hhead, ih]

/-- A name in front that none of the others has leaves names different. -/
theorem nodup_map_cons {γ : Type} {name : α → γ} {a : α} {rest : List α}
    (hne : ∀ b ∈ rest, name a ≠ name b) (hrest : (rest.map name).Nodup) :
    ((a :: rest).map name).Nodup := by
  refine List.nodup_cons.mpr ⟨?_, hrest⟩
  intro hmem
  obtain ⟨b, hb, hname⟩ := List.mem_map.mp hmem
  exact hne b hb hname.symm

/-- What holds of one item of a list without repetitions picks this item. -/
theorem filter_eq_singleton {p : α → Bool} {items : List α} (h : items.Nodup) {a : α} (ha : a ∈ items)
    (hp : ∀ b ∈ items, p b = true ↔ b = a) : items.filter p = [a] := by
  induction items with
  | nil => cases ha
  | cons b rest ih =>
    obtain ⟨hb, hrest⟩ := List.nodup_cons.mp h
    have hprest : ∀ c ∈ rest, p c = true ↔ c = a := fun c hc => hp c (List.mem_cons_of_mem _ hc)
    rcases List.mem_cons.mp ha with rfl | ha
    · have hnone : rest.filter p = [] := by
        rw [List.filter_eq_nil_iff]
        intro c hc hpc
        exact hb ((hprest c hc).mp hpc ▸ hc)
      rw [List.filter_cons_of_pos ((hp a List.mem_cons_self).mpr rfl), hnone]
    · have hne : ¬ p b = true := by
        intro hpb
        exact hb ((hp b List.mem_cons_self).mp hpb ▸ ha)
      rw [List.filter_cons_of_neg hne]
      exact ih hrest ha hprest

/-- Where names are different, the lookup of a name finds the item that has it. -/
theorem find?_of_nodup (name : α → String) {items : List α} (h : (items.map name).Nodup) {a : α}
    (ha : a ∈ items) : (items.find? fun b => name b == name a) = some a := by
  have hfilter : (items.filter fun b => name b == name a) = [a] := by
    refine filter_eq_singleton h.of_map ha fun b hb => ?_
    rw [beq_iff_eq]
    exact ⟨fun hname => List.inj_on_of_nodup_map h hb ha hname, fun heq => heq ▸ rfl⟩
  rw [← List.head?_filter, hfilter]
  rfl

/-- Where names are different, the lookup of a name finds the same in any order. -/
theorem find?_eq_of_perm (name : α → String) {items items' : List α} (h : items.Perm items')
    (hnodup : (items.map name).Nodup) (k : String) :
    (items.find? fun a => name a == k) = items'.find? fun a => name a == k := by
  have hnodup' : (items'.map name).Nodup := (h.map name).nodup_iff.mp hnodup
  cases hfind : items.find? fun a => name a == k with
  | none =>
    refine (List.find?_eq_none.mpr fun a ha => ?_).symm
    exact List.find?_eq_none.mp hfind a (h.mem_iff.mpr ha)
  | some a =>
    obtain rfl : name a = k := by simpa using List.find?_some hfind
    exact (find?_of_nodup name hnodup' (h.mem_iff.mp (List.mem_of_find?_eq_some hfind))).symm

/-- Lists that each item yields under its own name are told apart by that name, where names are
different. -/
theorem filter_flatMap_of_nodup (name : α → String) {items : List α} (h : (items.map name).Nodup)
    {f : α → List β} {source : β → String} (hf : ∀ a ∈ items, ∀ b ∈ f a, source b = name a) {a : α}
    (ha : a ∈ items) : ((items.flatMap f).filter fun b => source b == name a) = f a := by
  induction items with
  | nil => cases ha
  | cons c rest ih =>
    obtain ⟨hc, hrest⟩ := List.nodup_cons.mp h
    have hothers : ∀ b ∈ rest, ∀ x ∈ f b, source x = name b := fun b hb =>
      hf b (List.mem_cons_of_mem _ hb)
    have hown : ∀ x ∈ f c, source x = name c := hf c List.mem_cons_self
    rw [List.flatMap_cons, List.filter_append]
    by_cases hname : name c = name a
    · obtain rfl : a = c := List.inj_on_of_nodup_map h ha List.mem_cons_self hname.symm
      have hkept : ((f a).filter fun b => source b == name a) = f a :=
        List.filter_eq_self.mpr fun x hx => by simp [hown x hx]
      have hnone : ((rest.flatMap f).filter fun b => source b == name a) = [] := by
        rw [List.filter_eq_nil_iff]
        intro x hx hsource
        obtain ⟨b, hb, hxb⟩ := List.mem_flatMap.mp hx
        have heq : name b = name a := (hothers b hb x hxb).symm.trans (by simpa using hsource)
        exact hc (heq ▸ List.mem_map_of_mem hb)
      rw [hkept, hnone, List.append_nil]
    · have hmem : a ∈ rest := by
        rcases List.mem_cons.mp ha with rfl | ha
        · exact absurd rfl hname
        · exact ha
      have hnone : ((f c).filter fun b => source b == name a) = [] := by
        rw [List.filter_eq_nil_iff]
        intro x hx hsource
        exact hname ((hown x hx).symm.trans (by simpa using hsource))
      rw [hnone, List.nil_append]
      exact ih hrest hothers hmem

/-- Lists that each item yields under its own name are told apart by that name in any order of the items. -/
theorem filter_flatMap_eq_of_perm (name : α → String) {items items' : List α} (h : items.Perm items')
    (hnodup : (items.map name).Nodup) {f : α → List β} {source : β → String}
    (hf : ∀ a ∈ items, ∀ b ∈ f a, source b = name a) (k : String) :
    ((items.flatMap f).filter fun b => source b == k) =
      (items'.flatMap f).filter fun b => source b == k := by
  have hnodup' : (items'.map name).Nodup := (h.map name).nodup_iff.mp hnodup
  have hf' : ∀ a ∈ items', ∀ b ∈ f a, source b = name a := fun a ha => hf a (h.mem_iff.mpr ha)
  by_cases hk : ∃ a ∈ items, name a = k
  · obtain ⟨a, ha, rfl⟩ := hk
    rw [filter_flatMap_of_nodup name hnodup hf ha,
      filter_flatMap_of_nodup name hnodup' hf' (h.mem_iff.mp ha)]
  · have hnone : ∀ b, (∃ a ∈ items, b ∈ f a) → ¬ (source b == k) = true := by
      rintro b ⟨a, ha, hb⟩ hsource
      exact hk ⟨a, ha, (hf a ha b hb).symm.trans (beq_iff_eq.mp hsource)⟩
    rw [List.filter_eq_nil_iff.mpr fun b hb => hnone b (List.mem_flatMap.mp hb),
      List.filter_eq_nil_iff.mpr fun b hb => hnone b ?_]
    obtain ⟨a, ha, hb⟩ := List.mem_flatMap.mp hb
    exact ⟨a, h.mem_iff.mpr ha, hb⟩

/-- What is picked from a list is what its head yields, if anything, in front of the others. -/
theorem filterMap_cons_toList (f : α → Option β) (a : α) (rest : List α) :
    (a :: rest).filterMap f = (f a).toList ++ rest.filterMap f := by
  rw [List.filterMap_cons]
  cases f a <;> rfl

/-- What is picked from two related lists is the same where it is for related items. -/
theorem filterMap_eq_filterMap_of_forall₂ {γ : Type} {R : α → β → Prop} {f : α → Option γ}
    {g : β → Option γ} {xs : List α} {ys : List β} (h : List.Forall₂ R xs ys)
    (hR : ∀ x y, R x y → f x = g y) : xs.filterMap f = ys.filterMap g := by
  induction h with
  | nil => rfl
  | cons hhead _ ih => rw [List.filterMap_cons, List.filterMap_cons, hR _ _ hhead, ih]

/-- What yields nothing may be left out first. -/
theorem filterMap_filter_of_isSome {f : α → Option β} {p : α → Bool} (h : ∀ a, (f a).isSome = p a)
    (xs : List α) : (xs.filter p).filterMap f = xs.filterMap f := by
  rw [List.filterMap_filter]
  refine List.filterMap_congr fun a _ => ?_
  rw [← h a]
  cases f a <;> rfl

/-- What related lists yield item by item is the same where it is for related items. -/
theorem flatMap_eq_flatMap_of_forall₂ {γ : Type} {R : α → β → Prop} {f : α → List γ} {g : β → List γ}
    {xs : List α} {ys : List β} (h : List.Forall₂ R xs ys) (hR : ∀ x y, R x y → f x = g y) :
    xs.flatMap f = ys.flatMap g := by
  rw [List.flatMap_def, List.flatMap_def, map_eq_map_of_forall₂ h fun x y hxy => (hR x y hxy).symm]

/-- Where each item has a result, the results are all that is picked. -/
theorem filterMap_eq_of_forall₂ {f : α → Option β} {xs : List α} {ys : List β}
    (h : List.Forall₂ (fun x y => f x = some y) xs ys) : xs.filterMap f = ys := by
  rw [filterMap_eq_filterMap_of_forall₂ (g := some) h fun _ _ hf => hf, List.filterMap_some]

/-- What is picked from the right of two related lists is related to what is kept on the left, where each
related pair is picked and kept together. -/
theorem forall₂_filter_filterMap {γ : Type} {R : α → β → Prop} {S : α → γ → Prop} {p : α → Bool}
    {f : β → Option γ} {xs : List α} {ys : List β} (h : List.Forall₂ R xs ys)
    (hR : ∀ x y, R x y → p x = false ∧ f y = none ∨ p x = true ∧ ∃ z, f y = some z ∧ S x z) :
    List.Forall₂ S (xs.filter p) (ys.filterMap f) := by
  induction h with
  | nil => exact .nil
  | cons hhead _ ih =>
    obtain ⟨hp, hf⟩ | ⟨hp, z, hf, hS⟩ := hR _ _ hhead
    · rw [List.filter_cons_of_neg (by simp [hp]), List.filterMap_cons_none hf]
      exact ih
    · rw [List.filter_cons_of_pos hp, List.filterMap_cons_some hf]
      exact .cons hS ih

/-- Lists that are related to one list are related by way of its items. -/
theorem forall₂_comp {γ : Type} {R : α → β → Prop} {S : β → γ → Prop} {xs : List α} {ys : List β} {zs : List γ}
    (hxy : List.Forall₂ R xs ys) (hyz : List.Forall₂ S ys zs) :
    List.Forall₂ (fun x z => ∃ y ∈ ys, R x y ∧ S y z) xs zs := by
  induction hxy generalizing zs with
  | nil =>
    rw [List.forall₂_nil_left_iff.mp hyz]
    exact .nil
  | cons hhead _ ih =>
    obtain ⟨z, rest, hz, hrest, rfl⟩ := List.forall₂_cons_left_iff.mp hyz
    refine .cons ⟨_, List.mem_cons_self, hhead, hz⟩ ((ih hrest).imp ?_)
    rintro x z ⟨y, hy, hxy, hyz⟩
    exact ⟨y, List.mem_cons_of_mem _ hy, hxy, hyz⟩

/-- Items that are each related to something are related to a list. -/
theorem exists_forall₂ {R : α → β → Prop} {xs : List α} (h : ∀ x ∈ xs, ∃ y, R x y) :
    ∃ ys, List.Forall₂ R xs ys := by
  induction xs with
  | nil => exact ⟨[], .nil⟩
  | cons x xs ih =>
    obtain ⟨⟨y, hy⟩, hrest⟩ := List.forall_mem_cons.mp h
    obtain ⟨ys, hys⟩ := ih hrest
    exact ⟨y :: ys, .cons hy hys⟩

/-- What is related to different items is different, where nothing is related to two items. -/
theorem nodup_of_forall₂ {R : α → β → Prop} {xs : List α} {ys : List β} (h : List.Forall₂ R xs ys)
    (hxs : xs.Nodup) (hR : ∀ x ∈ xs, ∀ x' ∈ xs, ∀ y, R x y → R x' y → x = x') : ys.Nodup := by
  induction h with
  | nil => exact List.nodup_nil
  | cons hhead hrest ih =>
    obtain ⟨hx, hxs⟩ := List.nodup_cons.mp hxs
    refine List.nodup_cons.mpr ⟨fun hmem => ?_, ih hxs fun a ha b hb =>
      hR a (List.mem_cons_of_mem _ ha) b (List.mem_cons_of_mem _ hb)⟩
    obtain ⟨x', hx', hrelated⟩ := exists_left_of_forall₂ hrest hmem
    exact hx (hR _ List.mem_cons_self x' (List.mem_cons_of_mem _ hx') _ hhead hrelated ▸ hx')

/-- Lists without repetitions whose items are related one to one are related item by item, once the second list
is reordered. -/
theorem exists_perm_forall₂ {R : α → β → Prop} {xs : List α} {ys : List β} (hxs : xs.Nodup)
    (hys : ys.Nodup) (hright : ∀ x ∈ xs, ∃ y ∈ ys, R x y) (hleft : ∀ y ∈ ys, ∃ x ∈ xs, R x y)
    (hunique : ∀ x, ∀ y ∈ ys, ∀ y' ∈ ys, R x y → R x y' → y = y')
    (hinjective : ∀ x ∈ xs, ∀ x' ∈ xs, ∀ y, R x y → R x' y → x = x') :
    ∃ zs, zs.Perm ys ∧ List.Forall₂ R xs zs := by
  obtain ⟨zs, hzs⟩ := exists_forall₂ hright
  have hrelated : List.Forall₂ R xs zs := hzs.imp fun _ _ h => h.2
  refine ⟨zs, (List.perm_ext_iff_of_nodup (nodup_of_forall₂ hrelated hxs hinjective) hys).mpr ?_, hrelated⟩
  intro y
  constructor
  · intro hy
    obtain ⟨x, -, hmem, -⟩ := exists_left_of_forall₂ hzs hy
    exact hmem
  · intro hy
    obtain ⟨x, hx, hxy⟩ := hleft y hy
    obtain ⟨z, hz, hmem, hxz⟩ := exists_right_of_forall₂ hzs hx
    rwa [hunique x y hy z hmem hxy hxz]

namespace Progress

/-- Steps taken for each item end without a fault when each of them succeeds. -/
theorem of_eq_iff {step : α → Except ε β} {xs : List α} {ys : List β} :
    Progress.of step xs = ⟨ys, none⟩ ↔ List.Forall₂ (fun x y => step x = .ok y) xs ys := by
  induction xs generalizing ys with
  | nil =>
    rw [List.forall₂_nil_left_iff, Progress.of]
    simp [eq_comm]
  | cons x xs ih =>
    rw [List.forall₂_cons_left_iff, Progress.of]
    cases hx : step x with
    | error e => simp
    | ok y =>
      constructor
      · intro h
        obtain ⟨hdone, hfault⟩ := Progress.mk.inj h
        have hrest : Progress.of step xs = ⟨(Progress.of step xs).done, none⟩ := by
          rw [← hfault]
        exact ⟨y, _, rfl, ih.mp hrest, hdone.symm⟩
      · rintro ⟨z, rest, hz, hrest, rfl⟩
        obtain rfl := Except.ok.inj hz
        simp [ih.mpr hrest]

/-- A result comes from an item that the step succeeds on. -/
theorem exists_of_mem_done {step : α → Except ε β} {xs : List α} {y : β}
    (h : y ∈ (Progress.of step xs).done) : ∃ x ∈ xs, step x = .ok y := by
  induction xs with
  | nil => cases h
  | cons x xs ih =>
    rw [Progress.of] at h
    cases hx : step x with
    | error e =>
      rw [hx] at h
      cases h
    | ok z =>
      rw [hx] at h
      rcases List.mem_cons.mp h with rfl | h
      · exact ⟨x, List.mem_cons_self, hx⟩
      · obtain ⟨x', hx', hstep⟩ := ih h
        exact ⟨x', List.mem_cons_of_mem _ hx', hstep⟩

/-- Steps that succeed on every item end without a fault, with the list of their results. -/
theorem of_eq_map {step : α → Except ε β} {g : α → β} {xs : List α}
    (h : ∀ x ∈ xs, step x = .ok (g x)) : Progress.of step xs = ⟨xs.map g, none⟩ := by
  rw [of_eq_iff, List.forall₂_map_right_iff, List.forall₂_same]
  exact h

/-- All results are there when no step failed. -/
theorem all_eq_ok {p : Progress α ε} {xs : List α} : p.all = .ok xs ↔ p = ⟨xs, none⟩ := by
  obtain ⟨done, fault⟩ := p
  cases fault with
  | none => simp [all]
  | some e => simp [all]

/-- Parts end without a fault when each of them does. -/
theorem join_fault_eq_none {parts : List (Progress α ε)} :
    (join parts).fault = none ↔ ∀ p ∈ parts, p.fault = none := by
  induction parts with
  | nil => simp [join]
  | cons p rest ih =>
    rw [join, List.forall_mem_cons]
    cases hp : p.fault with
    | some e => simp
    | none => simpa using ih

/-- A result of several parts is one of a part, whether there is a fault or not. -/
theorem exists_of_mem_join {parts : List (Progress α ε)} {x : α} (h : x ∈ (join parts).done) :
    ∃ p ∈ parts, x ∈ p.done := by
  induction parts with
  | nil => cases h
  | cons p rest ih =>
    rw [join] at h
    cases hp : p.fault with
    | some e =>
      rw [hp] at h
      exact ⟨p, List.mem_cons_self, h⟩
    | none =>
      rw [hp] at h
      rcases List.mem_append.mp h with h | h
      · exact ⟨p, List.mem_cons_self, h⟩
      · obtain ⟨q, hq, hx⟩ := ih h
        exact ⟨q, List.mem_cons_of_mem _ hq, hx⟩

/-- Parts without a fault give their results one after another. -/
theorem join_eq_flatten {parts : List (Progress α ε)} (h : ∀ p ∈ parts, p.fault = none) :
    join parts = ⟨parts.flatMap Progress.done, none⟩ := by
  induction parts with
  | nil => rfl
  | cons p rest ih =>
    have hp : p.fault = none := h p List.mem_cons_self
    have hrest := ih fun q hq => h q (List.mem_cons_of_mem _ hq)
    simp [join, hp, hrest]

end Progress

end SchemaReconcile
