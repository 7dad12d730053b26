import SchemaReconcile.Proofs.Codec.BigInteger
import SchemaReconcile.Proofs.Codec.Bytes
import SchemaReconcile.Proofs.Codec.Rows
import SchemaReconcile.Proofs.Compile.Entities

/-!
# Records there and back

A record that is sent comes back in a normal form.  `driverValue?` is what the database returns for what was
sent: the decimal of a numeric text, and everything else as it was.  `HostForm` is what the host reads then:
the integer that a big integer denotes, the digits of bytes in lower case without their mark, and the value
itself where the field has no codec.

The normal form is sent as the same values again, so one trip is enough.  `exists_roundTrip` says this of
one value, `exists_roundTrip_row` of the entries of a record, and `encodeRow_roundTrip` of records and compiled
fields, together with what a trip leaves alone.
-/

namespace SchemaReconcile

open Number (Decimal Capacity)

/-- The value that the database returns for a value that was sent to a field with a codec. -/
def driverValue? (codec : Option Codec) (v : Value) : Option Value :=
  match codec, v with
  | some .bigInteger, .text s => (Decimal.ofText? s).map .decimal
  | _, v => some v

/-- The form in which a value that was sent comes back to the host. -/
inductive HostForm : Option Codec → Value → Value → Prop where
  | null (codec : Option Codec) : HostForm codec .null .null
  | bigInteger {v : Value} {n : ℤ} (h : Denotes v n) : HostForm (some .bigInteger) v (.int n)
  | bytes {s : String} {rest : List Char} (hmark : Unmarked s.toList rest) :
      HostForm (some .bytes) (.text s) (.text (String.ofList (Text.lower rest)))
  | identity (v : Value) : HostForm (some .identity) v v
  | plain (v : Value) : HostForm none v v

/-- An entry of a record that was sent, and what the database returns for it. -/
def Returned (fields : List RowField) (p q : String × Value) : Prop :=
  q.1 = p.1 ∧ driverValue? (codecOf fields p.1) p.2 = some q.2

/-- An entry of a record, and the form in which it comes back. -/
def Hosted (fields : List RowField) (p q : String × Value) : Prop :=
  q.1 = p.1 ∧ HostForm (codecOf fields p.1) p.2 q.2

/-! ## One value -/

/-- The digits that bytes are written with are those that they were read from, in lower case. -/
theorem lower_of_bytesOfHex? {cs : List Char} {bytes : List UInt8} (h : Text.bytesOfHex? cs = some bytes) :
    Text.lower cs = Text.hexOfBytes bytes := by
  rw [hexOfBytes_of_bytesOfHex? h]
  exact lower_of_hexText ((exists_bytesOfHex?_iff cs).mp ⟨bytes, h⟩)

/-- A value that is sent comes back in its host form, which is sent as the same value. -/
theorem exists_roundTrip [Capacity] {codec : Codec} {field : Option String} {v t : Value}
    (h : codec.toDatabase field v = .ok t) :
    ∃ u w, driverValue? (some codec) t = some u ∧ codec.fromDatabase field u = .ok w ∧
      HostForm (some codec) v w ∧ codec.toDatabase field w = .ok t := by
  cases codec with
  | bigInteger =>
    obtain ⟨rfl, rfl⟩ | ⟨n, hsend, rfl⟩ := bigIntegerToDatabase_eq_ok_iff.mp h
    · exact ⟨.null, .null, rfl, rfl, .null _, rfl⟩
    · obtain ⟨-, ⟨d, hd, hread⟩, hagain, -⟩ := plain_roundTrip field hsend.natAbs_lt
      refine ⟨.decimal d, .int n, ?_, hread, .bigInteger hsend.denotes, hagain⟩
      rw [driverValue?, hd, Option.map_some]
  | bytes =>
    obtain ⟨rfl, rfl⟩ | ⟨s, bytes, rfl, hread, rfl⟩ := bytesToDatabase_eq_ok_iff.mp h
    · exact ⟨.null, .null, rfl, rfl, .null _, rfl⟩
    · have hform : HostForm (some .bytes) (.text s) (.text (String.ofList (Text.hexOfBytes bytes))) := by
        rw [← lower_of_bytesOfHex? hread]
        exact .bytes (unmarked_iff.mpr rfl)
      refine ⟨.binary .bytes bytes, _, rfl, rfl, hform, bytesToDatabase_text.mpr ?_⟩
      rw [String.toList_ofList, hexBody_hexOfBytes, bytesOfHex?_hexOfBytes]
  | identity =>
    obtain rfl : v = t := Except.ok.inj h
    exact ⟨v, v, rfl, rfl, .identity v, rfl⟩

/-! ## Records -/

section

variable {fields : List RowField}

/-- The value of a key comes back in its host form, which is sent as the same value. -/
theorem exists_roundTrip_value [Capacity] {key : String} {v t : Value}
    (h : exchangeValue Codec.toDatabase fields key v = .ok t) :
    ∃ u w, driverValue? (codecOf fields key) t = some u ∧
      exchangeValue Codec.fromDatabase fields key u = .ok w ∧ HostForm (codecOf fields key) v w ∧
      exchangeValue Codec.toDatabase fields key w = .ok t := by
  unfold exchangeValue at h ⊢
  cases hcodec : codecOf fields key with
  | none =>
    rw [hcodec] at h
    obtain rfl : v = t := Except.ok.inj h
    exact ⟨v, v, rfl, rfl, .plain v, rfl⟩
  | some codec =>
    rw [hcodec] at h
    exact exists_roundTrip h

/-- The entries of a record that is sent come back in their host forms, which are sent as the same entries. -/
theorem exists_roundTrip_row [Capacity] {row encoded : Row}
    (h : List.Forall₂ (Exchanged Codec.toDatabase fields) row encoded) :
    ∃ read decoded, List.Forall₂ (Returned fields) encoded read ∧
      List.Forall₂ (Exchanged Codec.fromDatabase fields) read decoded ∧
      List.Forall₂ (Hosted fields) row decoded ∧
      List.Forall₂ (Exchanged Codec.toDatabase fields) decoded encoded := by
  induction h with
  | nil => exact ⟨[], [], .nil, .nil, .nil, .nil⟩
  | @cons p q _ _ hpq _ ih =>
    obtain ⟨key, v⟩ := p
    obtain ⟨key', t⟩ := q
    obtain ⟨hkey, hsend⟩ := hpq
    obtain rfl : key' = key := hkey
    obtain ⟨u, w, hreturn, hread, hform, hagain⟩ := exists_roundTrip_value hsend
    obtain ⟨read, decoded, hreturned, hdecoded, hhosted, hencoded⟩ := ih
    exact ⟨(key', u) :: read, (key', w) :: decoded, .cons ⟨rfl, hreturn⟩ hreturned,
      .cons ⟨rfl, hread⟩ hdecoded, .cons ⟨rfl, hform⟩ hhosted, .cons ⟨rfl, hagain⟩ hencoded⟩

end

/-! ## Compiled fields -/

/-- The codec of a stored field is that of its scalar kind; lists, enumerations and references have none. -/
theorem codec_of_storage {f : EntityField} {owner : String} {target : CompileTarget}
    {result : ColumnType × String × Option Codec} (h : f.storage owner target = .ok result) :
    result.2.2 = if f.isArray then none else f.type.kind?.bind Codec.ofKind? := by
  unfold EntityField.storage at h
  split at h
  · next name htype =>
    split at h
    · obtain rfl := Except.ok.inj h
      rw [htype]
      exact (ite_self _).symm
    · cases h
  · next entity htype =>
    obtain rfl := Except.ok.inj h
    rw [htype]
    exact (ite_self _).symm
  · next shape htype =>
    obtain rfl := Except.ok.inj h
    rw [htype]
    unfold scalarStorage
    split <;> rfl
  · next kind htype =>
    obtain rfl := Except.ok.inj h
    rw [htype]
    unfold scalarStorage
    split <;> rfl

/-- A list field compiles to one without a codec. -/
theorem codec_of_compileField {e : Entity} {target : CompileTarget} {f : EntityField} {g : CompiledField}
    (h : e.compileField target f = .ok g) (harray : f.isArray = true) : g.codec = none := by
  obtain ⟨column, -, h⟩ := bind_eq_ok.mp h
  obtain ⟨⟨type, host, codec⟩, hstorage, h⟩ := bind_eq_ok.mp h
  obtain rfl := Except.ok.inj h
  have hcodec := codec_of_storage hstorage
  rw [if_pos harray] at hcodec
  exact hcodec

/-- A record that is sent keeps its keys and what is under a key without a codec, lists among it, and the order
of the fields does not matter.  What the database returns for it is read as the record in its host form, and
this is sent as the same record again. -/
theorem encodeRow_roundTrip [Capacity] (fields : List CompiledField) (row encoded : Row)
    (hnames : (fields.map fun f => f.declared.name).Nodup) (hkeys : (row.map Prod.fst).Nodup)
    (h : encodeRow (fields.map CompiledField.toRowField) row = .ok encoded) :
    encoded.map Prod.fst = row.map Prod.fst ∧
      (∀ key, (∀ f ∈ fields, f.declared.name = key → f.codec = none) →
        encoded.lookup key = row.lookup key) ∧
      (∀ f ∈ fields, f.declared.isArray = true →
        (∃ e target, Entity.compileField e target f.declared = .ok f) →
        encoded.lookup f.declared.name = row.lookup f.declared.name) ∧
      (∀ fields' : List CompiledField, fields'.Perm fields →
        encodeRow (fields'.map CompiledField.toRowField) row = .ok encoded) ∧
      ∃ read decoded, List.Forall₂ (Returned (fields.map CompiledField.toRowField)) encoded read ∧
        decodeRow (fields.map CompiledField.toRowField) read = .ok decoded ∧
        List.Forall₂ (Hosted (fields.map CompiledField.toRowField)) row decoded ∧
        encodeRow (fields.map CompiledField.toRowField) decoded = .ok encoded := by
  have hrownames : ((fields.map CompiledField.toRowField).map RowField.name).Nodup := by
    rw [List.map_map]
    exact hnames
  have hsent := exchangeRow_exchanged hrownames hkeys h
  have hkeep : ∀ key, (∀ f ∈ fields, f.declared.name = key → f.codec = none) →
      encoded.lookup key = row.lookup key := by
    intro key hcodec
    refine lookup_eq_of_codecOf_eq_none hsent (codecOf_eq_none ?_)
    intro g hg hname
    obtain ⟨f, hf, rfl⟩ := List.mem_map.mp hg
    exact hcodec f hf hname
  refine ⟨keys_eq_of_exchanged hsent, hkeep, ?_, ?_, ?_⟩
  · rintro f hf harray ⟨e, target, hcompile⟩
    refine hkeep _ fun g hg hname => ?_
    obtain rfl : g = f := List.inj_on_of_nodup_map hnames hg hf hname
    exact codec_of_compileField hcompile harray
  · intro fields' hperm
    exact exchangeRow_of_perm (hperm.map _) hrownames hkeys h
  · obtain ⟨read, decoded, hreturned, hdecoded, hhosted, hencoded⟩ := exists_roundTrip_row hsent
    have hreadKeys : (read.map Prod.fst).Nodup := by
      rw [map_eq_map_of_forall₂ hreturned fun _ _ hpq => hpq.1, keys_eq_of_exchanged hsent]
      exact hkeys
    have hdecodedKeys : (decoded.map Prod.fst).Nodup := keys_eq_of_exchanged hdecoded ▸ hreadKeys
    exact ⟨read, decoded, hreturned, (exchangeRow_eq_ok_iff hrownames hreadKeys).mpr hdecoded, hhosted,
      (exchangeRow_eq_ok_iff hrownames hdecodedKeys).mpr hencoded⟩

/-- A coin with a supply, a hash and amounts. -/
def coin : Entity where
  name := "Coin"
  fields := [⟨"id", .scalar .id, false, false, none⟩, ⟨"supply", .scalar .bigInt, true, false, none⟩,
    ⟨"hash", .scalar .bytes, true, false, none⟩, ⟨"amounts", .scalar .bigInt, true, true, none⟩]

/-- The compiled fields of a coin. -/
def coinFields : List CompiledField := (coin.compileFields ⟨"public", []⟩).toOption.getD []

/-- A coin is sent: its hash as bytes, its supply as plain text, and the rest as it is. -/
theorem encodeRow_coin :
    encodeRow (coinFields.map CompiledField.toRowField)
        [("hash", .text "0XdeadBEEF"), ("supply", .text " +0_07 "), ("amounts", .list [.int 1])] =
      .ok [("hash", .binary .bytes [0xde, 0xad, 0xbe, 0xef]), ("supply", .text "7"),
        ("amounts", .list [.int 1])] := by
  have hfields : coinFields.map CompiledField.toRowField =
      [⟨"id", none⟩, ⟨"supply", some .bigInteger⟩, ⟨"hash", some .bytes⟩, ⟨"amounts", none⟩] := by
    decide +kernel
  obtain ⟨digits, hwrites, hlength⟩ := Text.readInteger_eq_ok_iff.mp
    (show Text.readInteger " +0_07 " = .ok 7 by decide)
  have hsupply : Codec.bigInteger.toDatabase (some "supply") (.text " +0_07 ") = .ok (.text "7") := by
    rw [toDatabase_bigInteger]
    exact bigIntegerToDatabase_eq_ok_iff.mpr (.inr ⟨7, .text hwrites hlength, rfl⟩)
  have hhash : Codec.bytes.toDatabase (some "hash") (.text "0XdeadBEEF") =
      .ok (.binary .bytes [0xde, 0xad, 0xbe, 0xef]) := rfl
  rw [hfields]
  refine (exchangeRow_eq_ok_iff (by decide) (by simp)).mpr (.cons ⟨rfl, ?_⟩ (.cons ⟨rfl, ?_⟩
    (.cons ⟨rfl, rfl⟩ .nil)))
  · rw [exchangeValue, show codecOf _ "hash" = some .bytes from rfl]
    exact hhash
  · rw [exchangeValue, show codecOf _ "supply" = some .bigInteger from rfl]
    exact hsupply

/-- A coin comes back with its supply as a number, and its amounts stay as they are. -/
theorem encodeRow_roundTrip_coin :
    let fields := coinFields.map CompiledField.toRowField
    let row : Row := [("hash", .text "0XdeadBEEF"), ("supply", .text " +0_07 "), ("amounts", .list [.int 1])]
    ∃ encoded read decoded, encodeRow fields row = .ok encoded ∧
      encoded.lookup "amounts" = row.lookup "amounts" ∧ decodeRow fields read = .ok decoded ∧
      ("supply", .int 7) ∈ decoded ∧ encodeRow fields decoded = .ok encoded := by
  intro fields row
  have hnames : (coinFields.map fun f => f.declared.name).Nodup := by decide +kernel
  obtain ⟨-, -, hlists, -, read, decoded, -, hdecode, hhosted, hagain⟩ :=
    encodeRow_roundTrip coinFields row _ hnames (by simp [row]) encodeRow_coin
  have hcompile : coin.compileFields ⟨"public", []⟩ = .ok coinFields := eq_ok_of_toOption (by decide +kernel)
  obtain ⟨f, hf, hamounts⟩ := exists_right_of_forall₂ (mapM_eq_ok_iff.mp hcompile)
    (show (⟨"amounts", .scalar .bigInt, true, true, none⟩ : EntityField) ∈ coin.fields by simp [coin])
  have hdeclared := (Entity.compileField_ok hamounts).1
  have hkept := hlists f hf (by rw [hdeclared]) ⟨coin, _, by rw [hdeclared]; exact hamounts⟩
  rw [hdeclared] at hkept
  refine ⟨_, read, decoded, encodeRow_coin, hkept, hdecode, ?_, hagain⟩
  obtain ⟨⟨key, w⟩, hmem, hkey, hform⟩ := exists_right_of_forall₂ hhosted
    (show ("supply", .text " +0_07 ") ∈ row by simp [row])
  obtain rfl : key = "supply" := hkey
  have hcodec : codecOf fields "supply" = some .bigInteger := by decide +kernel
  rw [hcodec] at hform
  cases hform with
  | bigInteger hdenotes =>
    obtain ⟨digits, hwrites, -⟩ := Text.readInteger_eq_ok_iff.mp
      (show Text.readInteger " +0_07 " = .ok 7 by decide)
    obtain rfl := hdenotes.unique (.text hwrites)
    exact hmem

end SchemaReconcile
