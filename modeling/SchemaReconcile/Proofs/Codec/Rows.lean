import Mathlib.Data.List.Induction
import SchemaReconcile.Codec.Row
import SchemaReconcile.Proofs.Catalog.Entries
import SchemaReconcile.Proofs.First

/-!
# The exchange of a row

The fields of a row are exchanged one after the other, each from the record as it was given, so neither
what came before nor the order matters to a field.

A run fails at the first field in order whose value is refused, with the fault of this value
(`exchangeRow_eq_error_iff`).  A run that ends is described entry by entry: where no two fields have the same
name and no two keys are the same, the result has the keys of the record in their places, and each value is what
the codec of its key makes of it (`exchangeRow_eq_ok_iff`).  `codecOf` is this codec; a key that no field
has, or whose field has none, keeps its value.
-/

namespace SchemaReconcile

open Plan (IsFirst exists_isFirst)

/-- The codec of a key: that of the field with this name. -/
def codecOf (fields : List RowField) (key : String) : Option Codec :=
  (fields.find? fun f => f.name == key).bind (·.codec)

variable (exchange : Codec → Option String → Value → Except CodecFault Value)

/-- The value of a field in a record is refused with a fault. -/
def Refused (given : Row) (f : RowField) (fault : CodecFault) : Prop :=
  ∃ codec v, f.codec = some codec ∧ given.lookup f.name = some v ∧
    exchange codec (some f.name) v = .error fault

/-- The value of a key after the exchange. -/
def exchangeValue (fields : List RowField) (key : String) (v : Value) : Except CodecFault Value :=
  match codecOf fields key with
  | some codec => exchange codec (some key) v
  | none => .ok v

/-- An entry and what the exchange makes of it. -/
def Exchanged (fields : List RowField) (p q : String × Value) : Prop :=
  q.1 = p.1 ∧ exchangeValue exchange fields p.1 p.2 = .ok q.2

variable {exchange} {given row result : Row} {fields : List RowField} {f : RowField} {fault : CodecFault}

/-! ## One field -/

/-- The exchange of a field leaves the record, or sets the value of the field to what its codec gives. -/
theorem exchangeField_eq_ok (h : exchangeField exchange given row f = .ok result) :
    (f.codec = none ∨ given.lookup f.name = none) ∧ result = row ∨
      ∃ codec v w, f.codec = some codec ∧ given.lookup f.name = some v ∧
        exchange codec (some f.name) v = .ok w ∧ result = row.set f.name w := by
  unfold exchangeField at h
  split at h
  · next codec v hcodec hv =>
    obtain ⟨w, hw, h⟩ := bind_eq_ok.mp h
    exact .inr ⟨codec, v, w, hcodec, hv, hw, (Except.ok.inj h).symm⟩
  · next hnone =>
    refine .inl ⟨?_, (Except.ok.inj h).symm⟩
    cases hcodec : f.codec with
    | none => exact .inl rfl
    | some codec =>
      cases hv : given.lookup f.name with
      | none => exact .inr rfl
      | some v => exact absurd hv (hnone codec v hcodec)

/-- The exchange of a field fails when its value is refused, whatever the record has become. -/
theorem exchangeField_eq_error_iff :
    exchangeField exchange given row f = .error fault ↔ Refused exchange given f fault := by
  unfold exchangeField Refused
  cases hcodec : f.codec with
  | none =>
    refine iff_of_false nofun ?_
    rintro ⟨codec, v, hcodec, -⟩
    cases hcodec
  | some codec =>
    cases hv : given.lookup f.name with
    | none =>
      refine iff_of_false nofun ?_
      rintro ⟨codec, v, -, hv, -⟩
      cases hv
    | some v =>
      dsimp only
      rw [bind_eq_error]
      constructor
      · rintro (hw | ⟨w, -, hset⟩)
        · exact ⟨codec, v, rfl, rfl, hw⟩
        · cases hset
      · rintro ⟨codec, v, ⟨⟩, ⟨⟩, hw⟩
        exact .inl hw

/-! ## Runs that fail -/

/-- The exchange of a record fails at the first field whose value is refused. -/
theorem exchangeRow_eq_error_iff :
    exchangeRow exchange given fields = .error fault ↔
      ∃ f, IsFirst (fun g => ∃ fault', Refused exchange given g fault') fields f ∧
        Refused exchange given f fault :=
  foldlM_eq_error_iff (R := Refused exchange given) fun _ _ _ => exchangeField_eq_error_iff

/-- The exchange of a record ends when no value of a field is refused. -/
theorem exists_exchangeRow_iff :
    (∃ result, exchangeRow exchange given fields = .ok result) ↔
      ∀ f ∈ fields, ¬ ∃ fault, Refused exchange given f fault := by
  constructor
  · rintro ⟨result, hresult⟩ f hf hrefused
    obtain ⟨g, hg⟩ := exists_isFirst (P := fun g => ∃ fault, Refused exchange given g fault) |>.mpr
      ⟨f, hf, hrefused⟩
    obtain ⟨fault, hfault⟩ := hg.holds
    rw [exchangeRow_eq_error_iff.mpr ⟨g, hg, hfault⟩] at hresult
    cases hresult
  · intro h
    cases hrun : exchangeRow exchange given fields with
    | ok result => exact ⟨result, rfl⟩
    | error fault =>
      obtain ⟨f, hfirst, hf⟩ := exchangeRow_eq_error_iff.mp hrun
      exact absurd ⟨fault, hf⟩ (h f hfirst.mem)

/-! ## Codecs of keys -/

/-- A key has the codec of the field with its name, where names are different. -/
theorem codecOf_eq_some_iff (hnames : (fields.map RowField.name).Nodup) {key : String} {codec : Codec} :
    codecOf fields key = some codec ↔ ∃ f ∈ fields, f.name = key ∧ f.codec = some codec := by
  unfold codecOf
  rw [Option.bind_eq_some_iff]
  constructor
  · rintro ⟨f, hfind, hcodec⟩
    exact ⟨f, List.mem_of_find?_eq_some hfind, by simpa using List.find?_some hfind, hcodec⟩
  · rintro ⟨f, hf, rfl, hcodec⟩
    exact ⟨f, find?_of_nodup RowField.name hnames hf, hcodec⟩

/-- A key whose fields have no codec has none. -/
theorem codecOf_eq_none {key : String} (h : ∀ f ∈ fields, f.name = key → f.codec = none) :
    codecOf fields key = none := by
  unfold codecOf
  rw [Option.bind_eq_none_iff]
  intro f hfind
  exact h f (List.mem_of_find?_eq_some hfind) (by simpa using List.find?_some hfind)

/-- Where names are different, the order of the fields does not matter to the codec of a key. -/
theorem codecOf_eq_of_perm {fields' : List RowField} (h : fields'.Perm fields)
    (hnames : (fields.map RowField.name).Nodup) (key : String) : codecOf fields' key = codecOf fields key := by
  unfold codecOf
  rw [find?_eq_of_perm RowField.name h.symm hnames key]

/-- One more field gives its codec to its own name, and none to another. -/
theorem codecOf_concat (hname : ∀ g ∈ fields, g.name ≠ f.name) (key : String) :
    codecOf (fields ++ [f]) key = if key = f.name then f.codec else codecOf fields key := by
  unfold codecOf
  rw [List.find?_append]
  split
  · next hkey =>
    subst hkey
    have hnone : (fields.find? fun g => g.name == f.name) = none := by
      rw [List.find?_eq_none]
      intro g hg
      simpa using hname g hg
    rw [hnone, Option.none_or, List.find?_singleton, if_pos (by simp)]
    rfl
  · next hkey =>
    rw [List.find?_singleton, if_neg (by simpa using Ne.symm hkey), Option.or_none]

/-! ## Runs that end -/

/-- An entry of a record with different keys is found by its key. -/
theorem lookup_of_mem_row (hkeys : (given.map Prod.fst).Nodup) {key : String} {v : Value}
    (h : (key, v) ∈ given) : given.lookup key = some v :=
  Catalog.lookup_of_mem (fun _ ha _ hb hkey => List.inj_on_of_nodup_map hkeys ha hb hkey) h

/-- A value that is found by a key is an entry of the record. -/
theorem mem_of_lookup {key : String} {v : Value} (h : given.lookup key = some v) : (key, v) ∈ given := by
  obtain ⟨front, back, rfl, -⟩ := List.lookup_eq_some_iff.mp h
  simp

/-- One more field changes the entry of its own name, and no other. -/
theorem exchangeField_exchanged (hkeys : (given.map Prod.fst).Nodup) (hname : ∀ g ∈ fields, g.name ≠ f.name)
    (hrow : List.Forall₂ (Exchanged exchange fields) given row)
    (h : exchangeField exchange given row f = .ok result) :
    List.Forall₂ (Exchanged exchange (fields ++ [f])) given result := by
  have hother : ∀ key, key ≠ f.name → ∀ v,
      exchangeValue exchange (fields ++ [f]) key v = exchangeValue exchange fields key v := by
    intro key hkey v
    rw [exchangeValue, exchangeValue, codecOf_concat hname, if_neg hkey]
  have hbefore : ∀ v, exchangeValue exchange fields f.name v = .ok v := by
    intro v
    rw [exchangeValue, codecOf_eq_none fun g hg hgname => absurd hgname (hname g hg)]
  obtain ⟨hskip, rfl⟩ | ⟨codec, v, w, hcodec, hv, hw, rfl⟩ := exchangeField_eq_ok h
  · refine forall₂_imp_of_mem hrow ?_
    rintro ⟨key, v⟩ hp q hq ⟨hkey, hvalue⟩
    refine ⟨hkey, ?_⟩
    by_cases hname' : key = f.name
    · subst hname'
      have hnone : f.codec = none := by
        refine hskip.resolve_right fun hlookup => ?_
        rw [lookup_of_mem_row hkeys hp] at hlookup
        cases hlookup
      rw [hbefore] at hvalue
      rw [exchangeValue, codecOf_concat hname, if_pos rfl, hnone]
      exact hvalue
    · rw [hother key hname']
      exact hvalue
  · refine List.forall₂_map_right_iff.mpr (forall₂_imp_of_mem hrow ?_)
    rintro ⟨key, u⟩ hp ⟨key', u'⟩ hq ⟨hkey, hvalue⟩
    obtain rfl : key' = key := hkey
    dsimp only at hvalue ⊢
    by_cases hname' : key' = f.name
    · subst hname'
      have hu : u = v := Option.some.inj ((lookup_of_mem_row hkeys hp).symm.trans hv)
      rw [if_pos (beq_self_eq_true _)]
      refine ⟨rfl, ?_⟩
      dsimp only
      rw [exchangeValue, codecOf_concat hname, if_pos rfl, hcodec, hu]
      exact hw
    · rw [if_neg (by simpa using hname')]
      refine ⟨rfl, ?_⟩
      dsimp only
      rw [hother key' hname']
      exact hvalue

/-- Where names and keys are different, a run exchanges each entry by the codec of its key. -/
theorem exchangeRow_exchanged (hnames : (fields.map RowField.name).Nodup) (hkeys : (given.map Prod.fst).Nodup)
    (h : exchangeRow exchange given fields = .ok result) :
    List.Forall₂ (Exchanged exchange fields) given result := by
  -- the last field comes last: what the fields before it made is the record that it changes
  induction fields using List.reverseRecOn generalizing result with
  | nil =>
    obtain rfl : given = result := Except.ok.inj h
    exact List.forall₂_same.mpr fun p _ => ⟨rfl, rfl⟩
  | append_singleton fields f ih =>
    rw [List.map_append, List.map_singleton, List.nodup_append] at hnames
    obtain ⟨hnames, -, hname⟩ := hnames
    rw [exchangeRow, List.foldlM_append] at h
    obtain ⟨row, hrow, h⟩ := bind_eq_ok.mp h
    have hstep : exchangeField exchange given row f = .ok result := by
      rw [List.foldlM_cons] at h
      obtain ⟨last, hlast, h⟩ := bind_eq_ok.mp h
      rw [hlast]
      exact h
    exact exchangeField_exchanged hkeys
      (fun g hg => hname g.name (List.mem_map_of_mem hg) f.name (by simp)) (ih hnames hrow) hstep

/-- Where names and keys are different, a run ends with a record exactly when each entry of the record is the
exchange of the entry in its place. -/
theorem exchangeRow_eq_ok_iff (hnames : (fields.map RowField.name).Nodup)
    (hkeys : (given.map Prod.fst).Nodup) :
    exchangeRow exchange given fields = .ok result ↔
      List.Forall₂ (Exchanged exchange fields) given result := by
  refine ⟨exchangeRow_exchanged hnames hkeys, fun h => ?_⟩
  have hunique : Relator.RightUnique (Exchanged exchange fields) := by
    rintro p ⟨key, w⟩ ⟨key', w'⟩ ⟨hkey, hw⟩ ⟨hkey', hw'⟩
    rw [hw] at hw'
    exact Prod.ext (hkey.trans hkey'.symm) (Except.ok.inj hw')
  cases hrun : exchangeRow exchange given fields with
  | ok row => rw [List.right_unique_forall₂' hunique (exchangeRow_exchanged hnames hkeys hrun) h]
  | error fault =>
    obtain ⟨f, hfirst, codec, v, hcodec, hv, hfault⟩ := exchangeRow_eq_error_iff.mp hrun
    obtain ⟨q, -, -, hvalue⟩ := exists_right_of_forall₂ h (mem_of_lookup hv)
    have hkey : codecOf fields f.name = some codec :=
      (codecOf_eq_some_iff hnames).mpr ⟨f, hfirst.mem, rfl, hcodec⟩
    rw [exchangeValue, hkey] at hvalue
    dsimp only at hvalue
    rw [hfault] at hvalue
    cases hvalue

/-- The result of a run has the keys of the record. -/
theorem keys_eq_of_exchanged (h : List.Forall₂ (Exchanged exchange fields) given result) :
    result.map Prod.fst = given.map Prod.fst :=
  map_eq_map_of_forall₂ h fun _ _ hpq => hpq.1

/-- A key without a codec keeps its value. -/
theorem lookup_eq_of_codecOf_eq_none (h : List.Forall₂ (Exchanged exchange fields) given result) {key : String}
    (hkey : codecOf fields key = none) : result.lookup key = given.lookup key := by
  induction h with
  | nil => rfl
  | @cons p q _ _ hpq _ ih =>
    obtain ⟨j, v⟩ := p
    obtain ⟨j', w⟩ := q
    obtain ⟨hj, hvalue⟩ := hpq
    obtain rfl : j' = j := hj
    rw [Catalog.lookup_entry, Catalog.lookup_entry, ih]
    split
    · next heq =>
      obtain rfl : key = j' := eq_of_beq heq
      rw [exchangeValue, hkey] at hvalue
      obtain rfl : v = w := Except.ok.inj hvalue
      rfl
    · rfl

/-- Where names and keys are different, the order of the fields does not matter to a run that ends. -/
theorem exchangeRow_of_perm {fields' : List RowField} (hperm : fields'.Perm fields)
    (hnames : (fields.map RowField.name).Nodup) (hkeys : (given.map Prod.fst).Nodup)
    (h : exchangeRow exchange given fields = .ok result) :
    exchangeRow exchange given fields' = .ok result := by
  have hnames' : (fields'.map RowField.name).Nodup := (hperm.map _).nodup_iff.mpr hnames
  refine (exchangeRow_eq_ok_iff hnames' hkeys).mpr ((exchangeRow_exchanged hnames hkeys h).imp ?_)
  rintro p q ⟨hkey, hvalue⟩
  refine ⟨hkey, ?_⟩
  rw [exchangeValue, codecOf_eq_of_perm hperm hnames]
  exact hvalue

/-- The result of a run has the exchanged value of every key of the record. -/
theorem exists_lookup_exchangeRow (hnames : (fields.map RowField.name).Nodup)
    (hkeys : (given.map Prod.fst).Nodup) (h : exchangeRow exchange given fields = .ok result)
    {key : String} {v : Value} (hv : given.lookup key = some v) :
    ∃ w, result.lookup key = some w ∧ exchangeValue exchange fields key v = .ok w := by
  have hexchanged := exchangeRow_exchanged hnames hkeys h
  obtain ⟨⟨key', w⟩, hw, hkey, hvalue⟩ := exists_right_of_forall₂ hexchanged (mem_of_lookup hv)
  obtain rfl : key' = key := hkey
  have hkeys' : (result.map Prod.fst).Nodup := keys_eq_of_exchanged hexchanged ▸ hkeys
  exact ⟨w, lookup_of_mem_row hkeys' hw, hvalue⟩

end SchemaReconcile
