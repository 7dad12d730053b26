import SchemaReconcile.File.Tree
import SchemaReconcile.Proofs.Catalog.Entries
import SchemaReconcile.Proofs.Results

/-!
# Reading file trees

A path is followed from directory to directory, so where it leads depends on the directories of a tree alone, and a
tree that keeps them (`KeepsDirectories`) has it lead to the same place (`place_of_keeps`).  Making directories
keeps every node (`Keeps`), whether or not it comes to its end; writing a file keeps all but the file.

What is written is read back (`read_write`), and stays as long as nothing is written where it stands.  Different
paths may lead to one place.  Paths that do so in no tree are kept apart (`Apart`), and files at such paths do not
touch each other (`read_write_of_apart`); this is so for paths that go on from one directory by different names
(`apart_under`).
-/

namespace SchemaReconcile.File

/-- A path that goes on from another one. -/
def Path.under (p : Path) (names : List String) : Path := { p with names := p.names ++ names }

/-- A path that goes on by one name. -/
theorem Path.child_eq (p : Path) (name : String) : p.child name = p.under [name] := rfl

/-- A path that goes on twice goes on by all names. -/
theorem Path.under_under (p : Path) (names names' : List String) :
    (p.under names).under names' = p.under (names ++ names') := by
  simp only [under, List.append_assoc]

/-- Paths that go on by different names are different. -/
theorem Path.under_injective (p : Path) : Function.Injective p.under := by
  intro names names' h
  exact List.append_cancel_left (congrArg Path.names h)

namespace Tree

variable {t t' t'' : Tree} {p p' : Path} {names names' : List String} {q q' : Place} {bytes bytes' : List UInt8}

/-! ## Nodes -/

/-- A node is found at a place exactly when the place is listed. -/
theorem any_eq_isSome_lookup (t : Tree) (q : Place) :
    (t.any fun (r, _) => r == q) = (t.lookup q).isSome := by
  induction t with
  | nil => rfl
  | cons entry rest ih =>
    obtain ⟨r, n⟩ := entry
    rw [List.any_cons, Catalog.lookup_entry, ih]
    by_cases hr : r = q
    · simp [hr]
    · simp [hr, Ne.symm hr]

/-- A node that replaces those at a place is found there if there was one. -/
theorem lookup_replace (t : Tree) (q q' : Place) (node : Node) :
    (t.map fun (r, n) => if r == q then (r, node) else (r, n)).lookup q' =
      if q' == q then (t.lookup q').map fun _ => node else t.lookup q' := by
  induction t with
  | nil => simp
  | cons entry rest ih =>
    obtain ⟨r, n⟩ := entry
    rw [List.map_cons]
    dsimp only
    by_cases hr : r == q
    · obtain rfl : r = q := beq_iff_eq.mp hr
      rw [if_pos hr, Catalog.lookup_entry, Catalog.lookup_entry, ih]
      cases q' == r <;> rfl
    · rw [if_neg hr, Catalog.lookup_entry, Catalog.lookup_entry, ih]
      by_cases hq : q' = r
      · subst hq
        simp [hr]
      · simp [hq]

/-- A node that is set is found at its place, and the others where they were. -/
theorem lookup_set (t : Tree) (q q' : Place) (node : Node) :
    (t.set q node).lookup q' = if q' == q then some node else t.lookup q' := by
  rw [set, any_eq_isSome_lookup]
  cases hold : t.lookup q with
  | none =>
    simp only [Option.isSome_none, Bool.false_eq_true, if_false, List.lookup_append, Catalog.lookup_entry]
    by_cases hq : q' = q
    · simp [hq, hold]
    · simp [hq]
  | some n =>
    simp only [Option.isSome_some, if_true, lookup_replace]
    by_cases hq : q' = q
    · simp [hq, hold]
    · simp [hq]

/-- A node that is set is there. -/
theorem node?_set (hbare : isBare q = false) (t : Tree) (q' : Place) (node : Node) :
    (t.set q node).node? q' = if q' = q then some node else t.node? q' := by
  unfold node?
  by_cases hq : q' = q
  · subst hq
    simp [hbare, lookup_set]
  · simp [hq, lookup_set]

/-- A place at which there may be something but a directory has a name. -/
theorem isBare_eq_false (h : t.node? q ≠ some .directory) : isBare q = false := by
  unfold node? at h
  cases hbare : isBare q with
  | false => rfl
  | true => exact absurd (if_pos hbare) h

/-! ## Paths -/

/-- A tree has every directory of another one. -/
def KeepsDirectories (t t' : Tree) : Prop := ∀ q, t.node? q = some .directory → t'.node? q = some .directory

/-- Names are followed one part after the other. -/
theorem follow_append (t : Tree) (q : Place) (names names' : List String) :
    t.follow q (names ++ names') = t.follow q names >>= fun r => t.follow r names' := by
  induction names generalizing q with
  | nil => rfl
  | cons name rest ih =>
    rw [List.cons_append, follow, follow]
    cases t.node? q with
    | none => rfl
    | some node =>
      cases node with
      | file bytes => rfl
      | directory =>
        cases step q name with
        | error kind => rfl
        | ok r => exact ih r

/-- A name leads to the place that has it at its end, unless it leads to the place above. -/
theorem step_eq {name : String} (hname : up ≠ name) (h : step q name = .ok q') : q' = q ++ [name] := by
  rw [step, if_neg (by simpa using hname.symm)] at h
  split at h
  · cases h
  · exact (Except.ok.inj h).symm

/-- Names lead to the place that has them at its end, unless one of them leads to the place above. -/
theorem follow_eq (hnames : up ∉ names) (h : t.follow q names = .ok q') : q' = q ++ names := by
  induction names generalizing q with
  | nil => rw [List.append_nil, Except.ok.inj h]
  | cons name rest ih =>
    obtain ⟨hname, hrest⟩ := not_or.mp (mt List.mem_cons.mpr hnames)
    rw [follow] at h
    split at h
    · cases h
    · cases h
    · split at h
      · cases h
      · next r hstep => rw [ih hrest h, step_eq hname hstep, List.append_assoc, List.singleton_append]

/-- Names lead to the same place when the directories are kept. -/
theorem follow_of_keeps (hkeeps : KeepsDirectories t t') (h : t.follow q names = .ok q') :
    t'.follow q names = .ok q' := by
  induction names generalizing q with
  | nil => exact h
  | cons name rest ih =>
    rw [follow] at h ⊢
    split at h
    · cases h
    · cases h
    · next hdirectory =>
      rw [hkeeps q hdirectory]
      dsimp only
      cases hstep : step q name with
      | error kind =>
        rw [hstep] at h
        cases h
      | ok r =>
        rw [hstep] at h
        exact ih h

/-- A path leads somewhere when its names do. -/
theorem place_eq_ok_iff : t.place p = .ok q ↔ p.hasNul = false ∧ t.follow (start p) p.names = .ok q := by
  unfold place
  cases p.hasNul <;> simp

/-- A path leads to the same place when the directories are kept. -/
theorem place_of_keeps (hkeeps : KeepsDirectories t t') (h : t.place p = .ok q) : t'.place p = .ok q := by
  obtain ⟨hnul, hfollow⟩ := place_eq_ok_iff.mp h
  exact place_eq_ok_iff.mpr ⟨hnul, follow_of_keeps hkeeps hfollow⟩

/-- A path that goes on from another one leads to a place below that of the other one. -/
theorem exists_place_under (hnames : up ∉ names) (h : t.place (p.under names) = .ok q) :
    ∃ r, t.place p = .ok r ∧ q = r ++ names := by
  obtain ⟨hnul, hfollow⟩ := place_eq_ok_iff.mp h
  obtain ⟨r, hr, hrest⟩ := bind_eq_ok.mp ((follow_append t (start p) p.names names).symm.trans hfollow)
  have hnul' : p.hasNul = false := by
    rw [Path.hasNul, Path.under, List.any_append, Bool.or_eq_false_iff] at hnul
    exact hnul.1
  exact ⟨r, place_eq_ok_iff.mpr ⟨hnul', hr⟩, follow_eq hnames hrest⟩

/-- Two paths lead to different places in every tree. -/
def Apart (p p' : Path) : Prop :=
  ∀ (t : Tree) (q q' : Place), t.place p = .ok q → t.place p' = .ok q' → q ≠ q'

/-- Paths that go on from one directory by different names are apart. -/
theorem apart_under (hnames : up ∉ names) (hnames' : up ∉ names') (hne : names ≠ names') (p : Path) :
    Apart (p.under names) (p.under names') := by
  intro t q q' hq hq' heq
  obtain ⟨r, hr, rfl⟩ := exists_place_under hnames hq
  obtain ⟨r', hr', rfl⟩ := exists_place_under hnames' hq'
  obtain rfl := Except.ok.inj (hr.symm.trans hr')
  exact hne (List.append_cancel_left heq)

/-- A file is read when its path leads to it. -/
theorem read_eq_ok_iff : t.read p = .ok bytes ↔ ∃ q, t.place p = .ok q ∧ t.node? q = some (.file bytes) := by
  unfold read find
  cases hplace : t.place p with
  | error kind => simp
  | ok q =>
    cases hnode : t.node? q with
    | none => simp [hnode]
    | some node => cases node <;> simp [hnode]

/-! ## Directories -/

/-- A tree has every node of another one. -/
def Keeps (t t' : Tree) : Prop := ∀ q node, t.node? q = some node → t'.node? q = some node

/-- A tree keeps its own nodes. -/
theorem Keeps.refl (t : Tree) : Keeps t t := fun _ _ h => h

/-- What is kept twice is kept. -/
theorem Keeps.trans (h : Keeps t t') (h' : Keeps t' t'') : Keeps t t'' :=
  fun q node hq => h' q node (h q node hq)

/-- What is read stays when all nodes are kept. -/
theorem Keeps.read (h : Keeps t t') (hread : t.read p = .ok bytes) : t'.read p = .ok bytes := by
  obtain ⟨q, hplace, hnode⟩ := read_eq_ok_iff.mp hread
  exact read_eq_ok_iff.mpr ⟨q, place_of_keeps (fun r hr => h r _ hr) hplace, h q _ hnode⟩

/-- A directory is made where there is nothing. -/
theorem keeps_makeDirectory (h : t.makeDirectory p = .ok t') : Keeps t t' := by
  unfold makeDirectory at h
  split at h
  · cases h
  · next q _ =>
    split at h
    · cases h
    · next hnone =>
      obtain rfl := Except.ok.inj h
      intro r node hr
      rw [node?_set (isBare_eq_false (by rw [hnone]; simp))]
      split
      · next heq =>
        rw [heq, hnone] at hr
        cases hr
      · exact hr

/-- A new directory leaves all other nodes. -/
theorem keeps_ensureDirectory (h : t.ensureDirectory p = .ok t') : Keeps t t' := by
  unfold ensureDirectory at h
  split at h
  · next hmade =>
    obtain rfl := Except.ok.inj h
    exact keeps_makeDirectory hmade
  · split at h
    · cases h
    · split at h
      · obtain rfl := Except.ok.inj h
        exact Keeps.refl t
      · cases h

/-- Making a directory and those above it keeps all nodes, also when it fails. -/
theorem keeps_ensureReversed (root : String) (t : Tree) (names : List String) :
    Keeps t (ensureReversed root t names).1 := by
  induction names generalizing t with
  | nil =>
    rw [ensureReversed]
    split
    · next h => exact keeps_ensureDirectory h
    · exact Keeps.refl t
  | cons name above ih =>
    rw [ensureReversed]
    split
    · have habove := ih t
      split
      · next heq => rwa [heq] at habove
      · next heq =>
        rw [heq] at habove
        split
        · next h => exact habove.trans (keeps_ensureDirectory h)
        · exact habove
    · split
      · next h => exact keeps_ensureDirectory h
      · exact Keeps.refl t

/-- So do directories on the way to a place. -/
theorem keeps_ensureDirectories (t : Tree) (p : Path) : Keeps t (t.ensureDirectories p).1 :=
  keeps_ensureReversed p.root t p.names.reverse

/-! ## Files -/

/-- A file is written where there is no directory. -/
theorem write_eq_ok (h : t.write p bytes = .ok t') :
    ∃ q, t.place p = .ok q ∧ t.node? q ≠ some .directory ∧ t' = t.set q (.file bytes) := by
  unfold write at h
  split at h
  · cases h
  · next q hplace =>
    split at h
    · cases h
    · next hnode => exact ⟨q, hplace, fun hdirectory => hnode hdirectory, (Except.ok.inj h).symm⟩

/-- Writing a file keeps the directories. -/
theorem keepsDirectories_set (hnode : t.node? q ≠ some .directory) (node : Node) :
    KeepsDirectories t (t.set q node) := by
  intro r hr
  have hne : r ≠ q := by
    rintro rfl
    exact hnode hr
  rw [node?_set (isBare_eq_false hnode), if_neg hne]
  exact hr

/-- What is written is read back. -/
theorem read_write (h : t.write p bytes = .ok t') : t'.read p = .ok bytes := by
  obtain ⟨q, hplace, hnode, rfl⟩ := write_eq_ok h
  refine read_eq_ok_iff.mpr ⟨q, place_of_keeps (keepsDirectories_set hnode _) hplace, ?_⟩
  rw [node?_set (isBare_eq_false hnode), if_pos rfl]

/-- What is read stays when a file is written at a path apart. -/
theorem read_write_of_apart (hapart : Apart p p') (h : t.write p bytes = .ok t')
    (hread : t.read p' = .ok bytes') : t'.read p' = .ok bytes' := by
  obtain ⟨q, hplace, hnode, rfl⟩ := write_eq_ok h
  obtain ⟨q', hplace', hnode'⟩ := read_eq_ok_iff.mp hread
  refine read_eq_ok_iff.mpr ⟨q', place_of_keeps (keepsDirectories_set hnode _) hplace', ?_⟩
  rw [node?_set (isBare_eq_false hnode), if_neg (hapart t q q' hplace hplace').symm]
  exact hnode'

end Tree

end SchemaReconcile.File
