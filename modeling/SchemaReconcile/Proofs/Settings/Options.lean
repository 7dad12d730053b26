import SchemaReconcile.Proofs.Naming.Spelling
import SchemaReconcile.Proofs.Shape.Checked
import SchemaReconcile.Settings.Options

/-!
# Sound options

Options that are read from a record have a schema with a plain name within the limit of the database,
whether the record names it or leaves it at the default (`sound_of_readOptions`).
-/

namespace SchemaReconcile

open Shape.Checked

namespace Settings

/-- A plain identifier is a plain name. -/
theorem plain_of_isPlainIdentifier {name : String} (h : isPlainIdentifier name = true) :
    Naming.Plain name := by
  unfold isPlainIdentifier at h
  split at h
  · cases h
  · next c rest hname =>
    obtain ⟨hstart, hrest⟩ := Bool.and_eq_true_iff.mp h
    exact Naming.plain_iff.mpr ⟨c, rest, hname, hstart, List.all_eq_true.mp hrest⟩

/-- The schema of the options is a plain name within the limit. -/
structure Options.Sound (options : Options) : Prop where
  plain : Naming.Plain options.schema
  short : options.schema.utf8ByteSize ≤ Naming.maxIdentifierBytes

/-- A schema name that is read is plain and within the limit. -/
theorem readSchemaName_ok {v : Value} {name : String} (h : readSchemaName v = .ok name) :
    Naming.Plain name ∧ name.utf8ByteSize ≤ Naming.maxIdentifierBytes := by
  obtain ⟨text, -, h⟩ := andThen_eq_ok.mp h
  split at h
  · cases h
  · next hshort =>
    split at h
    · next hplain =>
      obtain rfl := Shape.Checked.ok.inj h
      have hname := plain_of_isPlainIdentifier hplain
      refine ⟨hname, ?_⟩
      rw [Naming.size_of_worded (hname.worded.mono _), String.length_toList]
      exact Nat.not_lt.mp hshort
    · cases h

/-- Options that are read are sound. -/
theorem sound_of_readOptions {record : List (Value × Value)} {options : Options}
    (h : readOptions record = .ok options) : options.Sound := by
  obtain ⟨_, limit, hfirst, -, rfl⟩ := seq_eq_ok.mp h
  obtain ⟨_, timestamps, hsecond, -, rfl⟩ := seq_eq_ok.mp hfirst
  obtain ⟨schema, hschema, rfl⟩ := Shape.Checked.map_eq_ok.mp hsecond
  have hpublic : Naming.Plain "public" := Naming.plain_of_isSafe (by decide) (by decide)
  have hsize : "public".utf8ByteSize ≤ Naming.maxIdentifierBytes := by decide
  rcases Shape.withDefault_eq_ok hschema with rfl | ⟨v, hread⟩
  · exact ⟨hpublic, hsize⟩
  · obtain ⟨hplain, hshort⟩ := readSchemaName_ok hread
    exact ⟨hplain, hshort⟩

end Settings

end SchemaReconcile
