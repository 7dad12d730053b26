import Mathlib.Data.List.Pairwise
import Mathlib.Data.List.Perm.Subperm
import SchemaReconcile.Proofs.Plan.Indexes

/-!
# Which operations are taken

An operation is taken when it is the first of its list that makes true what it is for, and a snapshot does not
show this yet (`mem_taken_of_isFirst`).  Of the operations that are taken, none makes a lasting fact true that
a later one is for (`pairwise_spares`), so no two of them are for the same one (`eq_of_wants`).  Together these
say which operations of a list a plan for an empty schema holds, whatever else is in the list.
-/

namespace SchemaReconcile.Plan

open Catalog (Operation Snapshot Fact)
open Catalog.Operation (applyAll shows_apply pending_iff)
open Settings (Options)

variable {options : Options} {m : Model} {ops taken : List Operation} {s : Snapshot}

/-- The first operation that makes a fact true is taken when it is for this fact and the snapshot does not show
it. -/
theorem mem_taken_of_isFirst (h : settle ops s = ⟨taken, none⟩) {f : Fact} (hfree : ¬ s.Shows f)
    {op : Operation} (hfirst : IsFirst (fun a => f ∈ a.effects) ops op) (hwants : f ∈ op.wants.head?) :
    op ∈ taken := by
  obtain ⟨before, after, rfl, -, hbefore⟩ := hfirst
  induction before generalizing s taken with
  | nil =>
    obtain ⟨-, ⟨-, later, rfl, -⟩ | ⟨hsettled, -⟩⟩ := settle_cons_eq h
    · exact List.mem_cons_self
    · have hpending : op.pending s = true := by
        rw [pending_iff]
        intro g hg
        rwa [Option.mem_unique hg hwants]
      rw [hpending] at hsettled
      cases hsettled
  | cons a rest ih =>
    obtain ⟨ha, hrest⟩ := List.forall_mem_cons.mp hbefore
    obtain ⟨-, ⟨hpending, later, rfl, hlater⟩ | ⟨-, hskip⟩⟩ := settle_cons_eq h
    · have hstill : ¬ (a.apply s).Shows f := by
        rw [shows_apply f hpending]
        rintro (⟨hshown, -⟩ | heffect)
        · exact hfree hshown
        · exact ha heffect
      exact List.mem_cons_of_mem _ (ih hstill hlater hrest)
    · exact ih hfree hskip hrest

/-- Where every operation of a certain sort is taken and none stands twice, those of this sort are taken in their
order. -/
theorem filter_taken (h : settle ops s = ⟨taken, none⟩) {p : Operation → Bool}
    (hnodup : (ops.filter p).Nodup) (hall : ∀ op ∈ ops, p op = true → op ∈ taken) :
    taken.filter p = ops.filter p := by
  have hsub := (settle_sublist ops s).filter p
  rw [h] at hsub
  have hkept : ops.filter p ⊆ taken.filter p := fun op hop =>
    List.mem_filter.mpr ⟨hall op (List.mem_of_mem_filter hop) (List.of_mem_filter hop), List.of_mem_filter hop⟩
  exact hsub.eq_of_length_le (hnodup.subperm hkept).length_le

/-- No operation that is pending at its turn is for a lasting fact that is shown before. -/
theorem not_wants_of_shows (hturn : EachTurn (fun op s => op.pending s = true) ops s) {f : Fact}
    (hlasting : f.Lasting) (hf : s.Shows f) : ∀ op ∈ ops, f ∉ op.wants.head? := by
  induction ops generalizing s with
  | nil => simp
  | cons op rest ih =>
    have hstep : (op.apply s).Shows f :=
      (shows_apply f hturn.1).mpr (.inl ⟨hf, Catalog.Operation.not_overwrites_of_lasting hlasting⟩)
    exact List.forall_mem_cons.mpr ⟨fun hwants => pending_iff.mp hturn.1 f hwants hf, ih hturn.2 hstep⟩

/-- A table that is created along a run of pending operations was not there before. -/
theorem hasTable_eq_false_of_mem (hturn : EachTurn (fun op s => op.pending s = true) ops s)
    {schema table : String} {columns : List Sql.Column} {comment : Option String}
    (hop : .createTable schema table columns comment ∈ ops) : s.hasTable table = false := by
  by_contra hlive
  have hshown : s.Shows (.table table) := by simpa [Snapshot.Shows] using hlive
  have hlasting : (Fact.table table).Lasting := trivial
  exact not_wants_of_shows hturn hlasting hshown _ hop rfl

/-- An operation makes no lasting fact true that another one is for. -/
def Spares (a b : Operation) : Prop := ∀ f ∈ b.wants.head?, f.Lasting → f ∉ a.effects

/-- Of operations that are pending at their turns, each spares those after it. -/
theorem pairwise_spares (hturn : EachTurn (fun op s => op.pending s = true) ops s) :
    ops.Pairwise Spares := by
  induction ops generalizing s with
  | nil => exact List.Pairwise.nil
  | cons op rest ih =>
    refine List.pairwise_cons.mpr ⟨?_, ih hturn.2⟩
    intro b hb f hwants hlasting heffect
    have hshown : (op.apply s).Shows f := (shows_apply f hturn.1).mpr (.inr heffect)
    exact not_wants_of_shows hturn.2 hlasting hshown b hb hwants

/-- Of two operations that are pending at their turns one spares the other. -/
theorem spares_or_spares (hturn : EachTurn (fun op s => op.pending s = true) ops s) {a b : Operation}
    (ha : a ∈ ops) (hb : b ∈ ops) (hne : a ≠ b) : Spares a b ∨ Spares b a := by
  have hpairs : ops.Pairwise fun a b => Spares a b ∨ Spares b a :=
    (pairwise_spares hturn).imp fun h => .inl h
  have : Std.Symm fun a b : Operation => Spares a b ∨ Spares b a := ⟨fun _ _ h => h.symm⟩
  exact hpairs.forall ha hb hne

/-- Two operations that are pending at their turns and for the same lasting fact are the same. -/
theorem eq_of_wants (hturn : EachTurn (fun op s => op.pending s = true) ops s) {a b : Operation}
    (ha : a ∈ ops) (hb : b ∈ ops) {f : Fact} (hlasting : f.Lasting) (hfa : f ∈ a.wants.head?)
    (hfb : f ∈ b.wants.head?) : a = b := by
  have heffect : ∀ {op : Operation}, f ∈ op.wants.head? → f ∈ op.effects :=
    fun h => mem_effects_of_mem_wants (List.mem_of_mem_head? h)
  by_contra hne
  rcases spares_or_spares hturn ha hb hne with hspares | hspares
  · exact hspares f hfb hlasting (heffect hfa)
  · exact hspares f hfa hlasting (heffect hfb)

/-! ## Tables -/

/-- The operation of a model that creates the table of an entity is the one that the entity calls for. -/
theorem Calls.eq_table {schema : String} {columns : List Sql.Column} {comment : Option String} {e : Entity}
    {c : CompiledEntity} (h : m.Sound) (he : e ∈ m.entities) (hc : e.compile (targetOf options m) = .ok c)
    (hop : Calls options m (.createTable schema c.table columns comment)) :
    Operation.createTable schema c.table columns comment =
      .createTable options.schema c.table (c.columns options.timestamps) c.description := by
  generalize htable : c.table = table at hop
  cases hop with
  | @table e' c' he' hc' =>
    rw [(Entity.compile_ok hc).2.1, (Entity.compile_ok hc').2.1] at htable
    obtain rfl : e = e' := List.inj_on_of_nodup_map h.tables he he' htable
    obtain rfl : c = c' := Except.ok.inj (hc.symm.trans hc')
    rfl

/-- The table of an entity is created where there is none. -/
theorem createTable_mem_plan (h : m.Sound) (hplan : plan options m s = .ok ops) {e : Entity}
    (he : e ∈ m.entities) {c : CompiledEntity} (hc : e.compile (targetOf options m) = .ok c)
    (hfree : s.hasTable c.table = false) :
    .createTable options.schema c.table (c.columns options.timestamps) c.description ∈ ops := by
  obtain ⟨-, hsettle⟩ := (plan_ok_iff h).mp hplan
  obtain ⟨before, after, hsplit⟩ := List.append_of_mem ((mem_wanted h).mpr (.table he hc))
  have happart : (wanted options m).Pairwise TablesApart := (tablesFresh_wanted h).apart
  rw [hsplit, List.pairwise_append] at happart
  refine mem_taken_of_isFirst hsettle (f := .table c.table) (by simp [Snapshot.Shows, hfree])
    ⟨before, after, hsplit, List.mem_append_left _ List.mem_cons_self, ?_⟩ rfl
  intro op hop
  exact happart.2.2 op hop _ List.mem_cons_self _ (List.mem_singleton_self _)

/-- No column is added to a table that is created: each comes with its table. -/
theorem addColumn_not_mem_plan (h : m.Sound) (hplan : plan options m s = .ok ops) {schema table : String}
    {column : Sql.Column} (hfree : s.hasTable table = false) : .addColumn schema table column ∉ ops := by
  intro hop
  obtain ⟨hcalls, hturn⟩ := eachTurn_of_plan h hplan
  have hcall := hcalls _ hop
  cases hcall with
  | @column e c _ he hc hcolumn =>
    have hcreated := createTable_mem_plan h hplan he hc hfree
    rcases spares_or_spares hturn hcreated hop (by simp) with hspares | hspares
    · refine hspares (.column c.table column.name) rfl trivial (List.mem_append_left _ ?_)
      exact List.mem_cons_of_mem _ (List.mem_map.mpr ⟨column, hcolumn, rfl⟩)
    · exact hspares (.table c.table) rfl trivial List.mem_cons_self

end SchemaReconcile.Plan
