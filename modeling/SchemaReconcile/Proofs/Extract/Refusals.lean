import SchemaReconcile.Command.Fault
import SchemaReconcile.Proofs.Extract.Directives
import SchemaReconcile.Proofs.Extract.Yield

/-!
# Refused documents

A refusal of the extraction is documented when it belongs to the pipeline and names a declared type
(`ExtractFault.Documented`).  Four faults are not (`ExtractFault.Stray`), and each of them has its cause in
the document: these causes are what earlier checks let through.  A name may end with a line feed, which only
the key column of a reference moves away from the end; a group of indexed fields may hold lists, since a list
of a list type may be nested; a declared scalar need not have a kind of value; and an integer of any length
may stand where its text is needed for the message.

The stages of the extraction are gone through in order, each with the faults that it may raise
(`refuses_classify`, `refuses_directives`, `refuses_buildEntity`, `refuses_storage`), and put together in
`refuses_extract`.  What is carried along says one thing more (`ExtractFault.Checked`): only the check of
directive uses raises a fault about a directive.
-/

namespace SchemaReconcile

namespace ExtractFault

/-- A fault in the documented way: of the pipeline, and about a declared type. -/
structure Documented (d : Document) (fault : ExtractFault) : Prop where
  family : Command.extractFamily fault = .pipeline
  entity : ∃ t ∈ d.types, fault.entity? = some t.name

/-- The faults in another way, each with what in the document leads to it. -/
inductive Stray (d : Document) : ExtractFault → Prop where
  /-- A field has the type of a declared scalar that no kind of value is stored for. -/
  | scalar {t : TypeDeclaration} {f : FieldDeclaration} (ht : t ∈ d.types) (hf : f ∈ t.fields)
      (hscalar : f.type.name ∈ d.scalars) (hkind : FieldKind.ofName? f.type.name = none) :
      Stray d (.unstoredScalar f.type.name)
  /-- A group of indexed fields holds a list. -/
  | group {t : TypeDeclaration} {u : DirectiveUsage} {groups names items : List Value}
      (ht : t ∈ d.types) (hu : t.directive? KnownDirective.compositeIndexes.name = some u)
      (hgroups : u.argument? "fields" = some (.list groups)) (hnames : .list names ∈ groups)
      (hitems : .list items ∈ names) : Stray d .indexGroupNested
  /-- An argument holds an integer that is too long to be written. -/
  | argument {t : TypeDeclaration} {field : Option String} {u : DirectiveUsage} {k v : Value}
      (ht : t ∈ d.types) (hu : t.Uses field u) (hkv : (k, v) ∈ u.arguments) (hv : v.isWritable = false) :
      Stray d (.directive u.name ⟨t.name, field⟩ (.unwritable k.display .longNumber))
  /-- The name of a field that refers to an entity ends with a line feed. -/
  | column {t target : TypeDeclaration} {f : FieldDeclaration} {body : String} (ht : t ∈ d.types)
      (hf : f ∈ t.fields) (hname : f.name = body ++ "\n") (htarget : target ∈ d.types)
      (hrole : HasRole target .entity) (htype : f.type.name = target.name) :
      Stray d (.unsafeName ⟨"column name",
        Text.quoted (Naming.snakeCase (EntityField.keyName f.name))⟩)

variable {d : Document} {fault : ExtractFault}

/-- A fault in another way is not in the documented one. -/
theorem Stray.not_documented (h : Stray d fault) : ¬ Documented d fault := by
  rintro ⟨hfamily, t, -, hentity⟩
  cases h with
  | scalar => cases hentity
  | group => cases hfamily
  | argument => cases hfamily
  | column => cases hfamily

/-- Whether a fault is about a directive. -/
def isDirective : ExtractFault → Bool
  | .directive .. => true
  | _ => false

/-- A fault is what the check of a directive use of a document finds, if it is about a directive at all. -/
def Checked (d : Document) (fault : ExtractFault) : Prop :=
  ∀ name site found, fault = .directive name site found →
    ∃ t ∈ d.types, ∃ u, t.Uses site.field u ∧ site.owner = t.name ∧ u.name = name ∧
      usageFault? d.withBase (placeOf site.field) u = some found

/-- A refusal of the extraction: in the documented way, or in one of the others. -/
structure Expected (d : Document) (fault : ExtractFault) : Prop where
  way : Documented d fault ∨ Stray d fault
  checked : Checked d fault

/-- A fault about no directive is none that the check of a directive use finds. -/
theorem Checked.of_isDirective (h : fault.isDirective = false) : Checked d fault := by
  rintro name site found rfl
  cases h

/-- A fault of the pipeline about a declaration and no directive is documented. -/
theorem Expected.about {t : TypeDeclaration} (ht : t ∈ d.types)
    (hfamily : Command.extractFamily fault = .pipeline) (hentity : fault.entity? = some t.name)
    (hother : fault.isDirective = false) : Expected d fault :=
  ⟨.inl ⟨hfamily, t, ht, hentity⟩, .of_isDirective hother⟩

/-- A fault in another way and about no directive is expected. -/
theorem Stray.expected (h : Stray d fault) (hother : fault.isDirective = false) : Expected d fault :=
  ⟨.inr h, .of_isDirective hother⟩

end ExtractFault

open ExtractFault (Documented Stray Expected)

variable {d : Document}

/-! ## Names and roles -/

/-- Unsuitable names are documented. -/
theorem refuses_checkNames {t : TypeDeclaration} (ht : t ∈ d.types) :
    Refuses (Expected d) (checkNames t) := by
  unfold checkNames
  cases Naming.isSafe t.name with
  | false => exact .error (.about ht rfl rfl rfl)
  | true =>
    refine .bind (x := forIn t.fields () _) (.forIn fun f _ => ?_) fun _ _ => .ok ()
    cases Naming.isSafe f.name with
    | false => exact .bind (.error (.about ht rfl rfl rfl)) fun _ _ => .ok _
    | true => exact .bind (.ok ()) fun _ _ => .ok _

/-- Objects without one role are documented. -/
theorem refuses_objectRole {t : TypeDeclaration} (ht : t ∈ d.types) :
    Refuses (Expected d) (objectRole t) := by
  unfold objectRole
  split
  · exact .error (.about ht rfl rfl rfl)
  · exact .ok _
  · exact .ok _
  · exact .error (.about ht rfl rfl rfl)

/-- Faults of classifying are documented. -/
theorem refuses_classify (taken : List String) {types : List TypeDeclaration}
    (htypes : ∀ t ∈ types, t ∈ d.types) : Refuses (Expected d) (classify taken types) := by
  induction types generalizing taken with
  | nil => exact .ok []
  | cons t rest ih =>
    obtain ⟨ht, hrest⟩ := List.forall_mem_cons.mp htypes
    have hlater : ∀ role, Refuses (Expected d) (do
        let later ← classify (t.name :: taken) rest
        return (role, t) :: later) := fun role => .bind (ih _ hrest) fun _ _ => .ok _
    cases hkind : t.kind with
    | scalar =>
      rw [classify, hkind]
      exact ih taken hrest
    | enumeration =>
      rw [classify, hkind]
      refine .bind (refuses_checkNames ht) fun _ _ => ?_
      cases taken.contains t.name with
      | true => exact .error (.about ht rfl rfl rfl)
      | false => exact hlater .enumeration
    | object =>
      rw [classify, hkind]
      refine .bind (refuses_checkNames ht) fun _ _ => ?_
      cases taken.contains t.name with
      | true => exact .error (.about ht rfl rfl rfl)
      | false => exact .bind (refuses_objectRole ht) fun role _ => hlater role

/-! ## Directives -/

/-- A fault of a directive use is documented, unless its argument is too long to be written. -/
theorem way_of_verdict {doc : Document} {place : String} {t : TypeDeclaration} {u : DirectiveUsage}
    {field : Option String} {fault : DirectiveFault} (ht : t ∈ d.types) (hu : t.Uses field u)
    (h : UsageVerdict doc place u (some fault)) :
    Documented d (.directive u.name ⟨t.name, field⟩ fault) ∨
      Stray d (.directive u.name ⟨t.name, field⟩ fault) := by
  cases h with
  | unknown => exact .inl ⟨rfl, t, ht, rfl⟩
  | misplaced => exact .inl ⟨rfl, t, ht, rfl⟩
  | missing => exact .inl ⟨rfl, t, ht, rfl⟩
  | argument hdd hplace hkv hfault =>
    cases hfault with
    | unknown => exact .inl ⟨rfl, t, ht, rfl⟩
    | type => exact .inl ⟨rfl, t, ht, rfl⟩
    | unwritable ha hfits hv => exact .inr (.argument ht hu hkv hv)

/-- Faults of directives are expected. -/
theorem refuses_directives {t : TypeDeclaration} (ht : t ∈ d.types) :
    Refuses (Expected d) (checkDirectives d.withBase t) := by
  refine refuses_checkDirectives fun field u hu fault hfault => ⟨?_, ?_⟩
  · exact way_of_verdict ht hu (hfault ▸ usageVerdict d.withBase (placeOf field) u)
  · rintro _ _ _ ⟨⟩
    exact ⟨t, ht, u, hu, rfl, rfl, hfault⟩

/-- Faults of declarations are expected. -/
theorem refuses_ofDocument (d : Document) : Refuses (Expected d) (Declarations.ofDocument d) := by
  refine .bind (refuses_classify _ fun t ht => ht) fun classified _ => ?_
  refine .bind (x := forIn d.types () _) (.forIn fun t ht => ?_) fun _ _ => .ok _
  exact .bind (refuses_directives ht) fun _ _ => .ok _

/-! ## Types of fields -/

/-- The names of a list that others were joined to. -/
theorem mem_appendNew {names more : List String} {s : String} :
    s ∈ appendNew names more ↔ s ∈ names ∨ s ∈ more := by
  induction more generalizing names with
  | nil => simp [appendNew]
  | cons t rest ih =>
    rw [appendNew, ih, List.mem_cons]
    by_cases ht : t ∈ names
    · rw [if_pos (by simpa using ht)]
      constructor
      · exact Or.imp_right .inr
      · rintro (h | rfl | h)
        · exact .inl h
        · exact .inl ht
        · exact .inr h
    · rw [if_neg (by simpa using ht), List.mem_append, List.mem_singleton, or_assoc]

/-- There is a kind for each scalar of every document. -/
theorem isSome_ofName?_of_base : ∀ s ∈ baseScalars, (FieldKind.ofName? s).isSome = true := by decide

section Parts

variable {ds : Declarations} {t : TypeDeclaration} {f : FieldDeclaration}

/-- A scalar that nothing is stored for is one that the document declares. -/
theorem refuses_scalarKind (hds : ds.document = d.withBase) (ht : t ∈ d.types) (hf : f ∈ t.fields) :
    Refuses (Expected d) (ds.scalarKind? f.type.name) := by
  unfold Declarations.scalarKind?
  split
  · next hscalar =>
    split
    · exact .ok _
    · next hkind =>
      refine .error (Stray.expected (.scalar ht hf ?_ hkind) rfl)
      rw [hds, List.contains_iff_mem] at hscalar
      rcases mem_appendNew.mp hscalar with hbase | hown
      · have hsome := isSome_ofName?_of_base _ hbase
        rw [hkind] at hsome
        cases hsome
      · exact hown
  · exact .ok _

/-- Faults of the members of a shape are expected. -/
theorem refuses_buildShape (hds : ds.document = d.withBase) (ht : t ∈ d.types) :
    Refuses (Expected d) (ds.buildShape t) := by
  refine .bind (.mapM fun f hf => ?_) fun _ _ => .ok _
  refine .bind (refuses_scalarKind hds ht hf) fun kind? _ => ?_
  cases kind? with
  | some kind => exact .ok _
  | none =>
    dsimp only
    split
    · exact .ok _
    · exact .error (.about ht rfl rfl rfl)

/-- Faults of a stored field are expected. -/
theorem refuses_buildField (hds : ds.document = d.withBase) (ht : t ∈ d.types) (hf : f ∈ t.fields) :
    Refuses (Expected d) (ds.buildField t f) := by
  refine .bind (refuses_scalarKind hds ht hf) fun kind? _ => ?_
  cases kind? with
  | some kind =>
    dsimp only
    split
    · exact .error (.about ht rfl rfl rfl)
    · exact .ok _
  | none =>
    dsimp only
    split
    · exact .ok _
    · split
      · exact .ok _
      · split
        · split
          · exact .error (.about ht rfl rfl rfl)
          · exact .ok _
        · exact .error (.about ht rfl rfl rfl)

/-! ## Indexes -/

/-- An index with an unknown method is documented. -/
theorem refuses_fieldIndex (ht : t ∈ d.types) : Refuses (Expected d) (fieldIndex? t f) := by
  unfold fieldIndex?
  split
  · exact .ok _
  · refine .bind ?_ fun _ _ => .ok _
    unfold indexMethodOf
    split
    · split
      · exact .ok _
      · exact .error (.about ht rfl rfl rfl)
    · exact .ok _

/-- A group of indexed fields has passed the check of directives. -/
theorem fitsItem_of_group (h : checkDirectives d.withBase t = .ok ()) {u : DirectiveUsage}
    {groups names : List Value} (hu : t.directive? KnownDirective.compositeIndexes.name = some u)
    (hgroups : u.argument? "fields" = some (.list groups)) (hnames : .list names ∈ groups) :
    ∀ v ∈ names, fitsItem { name := "String", nullable := false, isArray := true } v = true := by
  have hpassed := usageVerdict d.withBase objectPlace u
  rw [show usageFault? d.withBase objectPlace u = none from
    checkDirectives_ok h (.own (List.mem_of_find?_eq_some hu))] at hpassed
  have hname : u.name = KnownDirective.compositeIndexes.name := by simpa using List.find?_some hu
  cases hpassed with
  | passed hdd hplace hfits hgiven =>
    have hbase : d.withBase.directive? u.name = baseDirectives[4]? := by
      rw [hname]
      rfl
    obtain rfl := Option.some.inj (hdd.symm.trans hbase)
    cases hfits _ (Value.mem_of_entry? hgroups) with
    | passed ha hgroupsFit =>
      obtain rfl := Option.some.inj ha
      exact fitsItem_of_fitItems (fitsItem_of_fitItems hgroupsFit _ hnames)

/-- A text, or a list of such values, is all that fits as a text of a list; of these only a list is no key. -/
theorem exists_list_of_fitsItem {type : TypeRef} (htype : type.name = "String") {v : Value}
    (hfits : fitsItem type v = true) (hkey : v.isKey = false) : ∃ items, v = .list items := by
  cases v with
  | list items => exact ⟨items, rfl⟩
  | null => cases hkey
  | text s => cases hkey
  | _ => simp [fitsItem, fitsScalar, htype] at hfits

/-- Faults of the groups of indexed fields are expected. -/
theorem refuses_groupIndexes (ht : t ∈ d.types) (h : checkDirectives d.withBase t = .ok ())
    (stored derived : List String) : Refuses (Expected d) (groupIndexes t stored derived) := by
  unfold groupIndexes
  split
  · exact .ok _
  · next u hu =>
    split
    · next groups hgroups =>
      refine .mapM fun group hgroup => ?_
      unfold groupIndex
      split
      · next first more =>
        dsimp only
        split
        · next hkeys =>
          refine .error (Stray.expected ?_ rfl)
          obtain ⟨v, hv, hkey⟩ : ∃ v ∈ first :: more, v.isKey = false := by simpa using hkeys
          obtain ⟨items, rfl⟩ :=
            exists_list_of_fitsItem rfl (fitsItem_of_group h hu hgroups hgroup v hv) hkey
          exact .group ht hu hgroups hgroup hv
        · split
          · exact .error (.about ht rfl rfl rfl)
          · refine .bind (.mapM fun name _ => ?_) fun _ _ => .ok _
            unfold checkGroupName
            split
            · split
              · exact .error (.about ht rfl rfl rfl)
              · split
                · exact .ok _
                · exact .error (.about ht rfl rfl rfl)
            · exact .error (.about ht rfl rfl rfl)
      · exact .error (.about ht rfl rfl rfl)
    · exact .ok _

/-! ## Entities -/

/-- A derived field that points at nothing suitable is documented. -/
theorem refuses_checkDerived (ht : t ∈ d.types) (u : DirectiveUsage) :
    Refuses (Expected d) (ds.checkDerived t f u) := by
  unfold Declarations.checkDerived
  split
  · exact .error (.about ht rfl rfl rfl)
  · split
    · exact .error (.about ht rfl rfl rfl)
    · dsimp only
      split
      · exact .error (.about ht rfl rfl rfl)
      · split
        · exact .error (.about ht rfl rfl rfl)
        · split
          · exact .error (.about ht rfl rfl rfl)
          · exact .ok _

/-- Faults of the fields, indexes and key of an entity are expected. -/
theorem refuses_buildEntity (hds : ds.document = d.withBase) (ht : t ∈ d.types)
    (h : checkDirectives d.withBase t = .ok ()) : Refuses (Expected d) (ds.buildEntity t) := by
  refine .bind (.mapM fun f hf => ?_) fun parts _ => ?_
  · unfold Declarations.fieldPart
    split
    · exact .bind (refuses_checkDerived ht _) fun _ _ => .ok _
    · refine .bind (refuses_buildField hds ht hf) fun _ _ => ?_
      exact .bind (refuses_fieldIndex ht) fun _ _ => .ok _
  · refine .bind (refuses_groupIndexes ht h _ _) fun groups _ => ?_
    dsimp only
    split
    · exact .ok _
    · exact .error (.about ht rfl rfl rfl)

/-! ## Names in the database -/

/-- The column of a field with a safe name is safe, unless the field refers to an entity and a line feed is at
the end of its name. -/
theorem column_eq_error {g : EntityField} {fault : Naming.UnsafeName}
    (hname : Naming.isSafe g.name = true) (h : g.column = .error fault) :
    ∃ target body, g.type = .reference target ∧ g.name = body ++ "\n" ∧
      fault = ⟨"column name", Text.quoted (Naming.snakeCase (EntityField.keyName g.name))⟩ := by
  unfold EntityField.column Naming.safe at h
  split at h
  · cases h
  · next hcolumn =>
    cases hreference : g.isReference with
    | false =>
      rw [EntityField.storedName, EntityField.foreignKey?, hreference] at hcolumn
      exact absurd (Naming.isSafe_snakeCase hname) hcolumn
    | true =>
      rw [EntityField.storedName, EntityField.foreignKey?, hreference] at h hcolumn
      obtain ⟨target, htarget⟩ := g.isReference_iff.mp hreference
      rcases Naming.isSafe_iff.mp hname with hplain | ⟨body, -, hbody⟩
      · have hkey : Naming.Plain (EntityField.keyName g.name) := hplain.append (by decide)
        exact absurd (Naming.isSafe_snakeCase (Naming.isSafe_iff.mpr (.inl hkey))) hcolumn
      · exact ⟨target, body, htarget, hbody, (Except.error.inj h).symm⟩

/-- The columns of an entity are refused when two are the same, or one is refused. -/
theorem refuses_checkColumns {P : ExtractFault → Prop} {owner : String} {fields : List EntityField}
    (hshared : ∀ first second column, P (.sharedColumn owner first second column))
    (hcolumn : ∀ g ∈ fields, ∀ fault, g.column = .error fault → P (.unsafeName fault))
    (taken : List (String × String)) : Refuses P (checkColumns owner taken fields) := by
  induction fields generalizing taken with
  | nil => exact .ok ()
  | cons g rest ih =>
    obtain ⟨hg, hrest⟩ := List.forall_mem_cons.mp hcolumn
    unfold checkColumns
    split
    · next fault hfault => exact .error (hg fault hfault)
    · split
      · exact .error (hshared _ _ _)
      · exact ih hrest _

/-- Names in the database are refused when two tables are the same, or as the columns of an entity are. -/
theorem refuses_checkStorageNames {P : ExtractFault → Prop} {entities : List Entity}
    (hname : ∀ e ∈ entities, Naming.isSafe e.name = true)
    (hshared : ∀ e ∈ entities, ∀ first table, P (.sharedTable first e.name table))
    (hcolumns : ∀ e ∈ entities, Refuses P (checkColumns e.name [] e.fields))
    (taken : List (String × String)) : Refuses P (checkStorageNames taken entities) := by
  induction entities generalizing taken with
  | nil => exact .ok ()
  | cons e rest ih =>
    obtain ⟨hsafe, hnames⟩ := List.forall_mem_cons.mp hname
    obtain ⟨htable, htables⟩ := List.forall_mem_cons.mp hshared
    obtain ⟨hfields, hrest⟩ := List.forall_mem_cons.mp hcolumns
    unfold checkStorageNames
    rw [Entity.tableName_eq_ok.mpr ⟨Naming.isSafe_snakeCase hsafe, rfl⟩]
    dsimp only
    split
    · exact .error (htable _ _)
    · exact .bind hfields fun _ _ => ih hnames htables hrest _

/-! ## Relations -/

/-- Relations are refused when two derived fields share their source. -/
theorem shared_of_inferFields {entities : List Entity} {fields : List (Entity × FieldDeclaration)}
    {sources : List (String × String)} {fault : ExtractFault}
    (h : (inferFields entities sources fields).2 = some fault) :
    ∃ p ∈ fields, ∃ target back, fault = .sharedSource p.1.name p.2.name target back := by
  induction fields generalizing sources with
  | nil => cases h
  | cons p rest ih =>
    obtain ⟨entity, f⟩ := p
    unfold inferFields at h
    split at h
    · next found hfound =>
      obtain rfl := Option.some.inj h
      refine ⟨(entity, f), List.mem_cons_self, ?_⟩
      unfold inferField at hfound
      split at hfound
      · split at hfound
        · split at hfound <;> cases hfound
        · cases hfound
      · dsimp only at hfound
        split at hfound
        · exact ⟨_, _, (Except.error.inj hfound).symm⟩
        · cases hfound
    · obtain ⟨p, hp, hshared⟩ := ih h
      exact ⟨p, List.mem_cons_of_mem _ hp, hshared⟩

/-- The declared fields of entities are paired with these entities. -/
theorem fst_mem_of_mem_declaredFields {entities : List Entity} {p : Entity × FieldDeclaration}
    (h : p ∈ declaredFields ds entities) : p.1 ∈ entities := by
  obtain ⟨e, he, hp⟩ := List.mem_flatMap.mp h
  split at hp
  · obtain ⟨f, -, rfl⟩ := List.mem_map.mp hp
    exact he
  · cases hp

/-- The declarations among the parts of a document. -/
theorem declarations_of_parts {parts : Parts} (h : Parts.ofDocument d = .ok parts) :
    Declarations.ofDocument d = .ok parts.declarations := by
  obtain ⟨ds, hds, h⟩ := bind_eq_ok.mp h
  obtain ⟨enums, -, h⟩ := bind_eq_ok.mp h
  obtain ⟨shapes, -, h⟩ := bind_eq_ok.mp h
  obtain rfl := Except.ok.inj h
  exact hds

end Parts

/-! ## Documents -/

/-- Faults of declarations, enumerations and shapes are expected. -/
theorem refuses_parts (d : Document) : Refuses (Expected d) (Parts.ofDocument d) := by
  refine .bind (refuses_ofDocument d) fun ds hds => ?_
  obtain ⟨-, hdoc, hclassified⟩ := Declarations.ofDocument_eq_ok hds
  have hmem : ∀ role, ∀ t ∈ ds.ofRole role, t ∈ d.types := fun role t ht =>
    ((mem_classified hclassified).mp (Declarations.mem_ofRole.mp ht)).1
  refine .bind (.mapM fun t ht => ?_) fun _ _ => .bind (.mapM fun t ht => ?_) fun _ _ => .ok _
  · unfold buildEnum
    split
    · exact .error (.about (hmem _ t ht) rfl rfl rfl)
    · exact .ok _
  · exact refuses_buildShape hdoc (hmem _ t ht)

/-- Faults of the names in the database are expected for entities of a document. -/
theorem refuses_storage {ds : Declarations} (hds : Declarations.ofDocument d = .ok ds)
    {entities : List Entity} (hbuilt : ∀ e ∈ entities, ∃ t ∈ ds.ofRole .entity, ds.buildEntity t = .ok e) :
    Refuses (Expected d) (checkStorageNames [] entities) := by
  obtain ⟨-, hdoc, hclassified⟩ := Declarations.ofDocument_eq_ok hds
  have hdeclared : ∀ t ∈ ds.ofRole .entity, t ∈ d.types ∧ HasRole t .entity := fun t ht =>
    (mem_classified hclassified).mp (Declarations.mem_ofRole.mp ht)
  have hsafe : ∀ t ∈ ds.ofRole .entity, Naming.isSafe t.name = true ∧
      ∀ f ∈ t.fields, Naming.isSafe f.name = true := fun t ht =>
    safe_of_mem_classified hclassified _ (Declarations.mem_ofRole.mp ht)
  refine refuses_checkStorageNames ?_ ?_ ?_ []
  · intro e he
    obtain ⟨t, ht, hbuild⟩ := hbuilt e he
    exact Declarations.name_of_buildEntity hbuild ▸ (hsafe t ht).1
  · intro e he first table
    obtain ⟨t, ht, hbuild⟩ := hbuilt e he
    exact .about (hdeclared t ht).1 rfl (congrArg some (Declarations.name_of_buildEntity hbuild)) rfl
  · intro e he
    obtain ⟨t, ht, hbuild⟩ := hbuilt e he
    have hentity : some e.name = some t.name := congrArg some (Declarations.name_of_buildEntity hbuild)
    refine refuses_checkColumns (fun _ _ _ => .about (hdeclared t ht).1 rfl hentity rfl) ?_ []
    intro g hg fault hfault
    obtain ⟨f, hf, -, hfg⟩ := Declarations.exists_field hbuild hg
    obtain ⟨hname, htyped⟩ := Declarations.buildField_ok hfg
    obtain ⟨target, body, htype, hbody, rfl⟩ :=
      column_eq_error (hname ▸ (hsafe t ht).2 f hf) hfault
    rw [htype] at htyped
    obtain ⟨rfl, htarget⟩ := htyped
    obtain ⟨target, htarget, htargetName⟩ := Declarations.has_iff.mp htarget
    obtain ⟨htargetMem, hrole⟩ := hdeclared target htarget
    rw [hname] at hbody ⊢
    exact Stray.expected (.column (hdeclared t ht).1 hf hbody htargetMem hrole htargetName.symm) rfl

/-- The faults of an extraction are in the documented way or in one of the others. -/
theorem refuses_extract (d : Document) : Refuses (Expected d) (extract d) := by
  refine .bind (refuses_parts d) fun parts hparts => ?_
  have hds := declarations_of_parts hparts
  obtain ⟨-, hdoc, hclassified⟩ := Declarations.ofDocument_eq_ok hds
  have hmem : ∀ t ∈ parts.declarations.ofRole .entity, t ∈ d.types := fun t ht =>
    ((mem_classified hclassified).mp (Declarations.mem_ofRole.mp ht)).1
  refine .bind (.progress fun t ht =>
    refuses_buildEntity hdoc (hmem t ht) (checked_of_ofDocument hds t (hmem t ht))) ?_
  intro entities hentities
  have hbuilt : ∀ e ∈ entities, ∃ t ∈ parts.declarations.ofRole .entity,
      parts.declarations.buildEntity t = .ok e := fun e he =>
    exists_left_of_forall₂ (Progress.of_eq_iff.mp (Progress.all_eq_ok.mp hentities)) he
  refine .bind (refuses_storage hds hbuilt) fun _ _ => ?_
  split
  · next inferred fault hinferred =>
    have hfault : (inferRelations parts.declarations entities).2 = some fault := by rw [hinferred]
    obtain ⟨p, hp, target, back, rfl⟩ := shared_of_inferFields hfault
    obtain ⟨t, ht, hbuild⟩ := hbuilt p.1 (fst_mem_of_mem_declaredFields hp)
    exact .error (.about (hmem t ht) rfl (congrArg some (Declarations.name_of_buildEntity hbuild)) rfl)
  · exact .ok _

/-- A document that is refused is refused in exactly one of two ways.  Either the fault is one of the pipeline
that names a declared type, or it is one of four others: a field of a scalar that nothing is stored for, a
list inside a group of indexed fields, an argument too long to be written, and the name of a reference field
with a line feed at its end. -/
theorem extract_refusals {d : Document} {fault : ExtractFault} (h : extract d = .error fault) :
    Xor (Documented d fault) (Stray d fault) := by
  rcases (refuses_extract d fault h).way with hdocumented | hstray
  · exact .inl ⟨hdocumented, fun hstray => hstray.not_documented hdocumented⟩
  · exact .inr ⟨hstray, hstray.not_documented⟩

/-- An entity with a group of indexed fields. -/
def groupedDocument (names : List Value) : Document where
  types := [{
    kind := .object
    name := "A"
    directives := [⟨KnownDirective.entity.name, []⟩,
      ⟨KnownDirective.compositeIndexes.name, [(.text "fields", .list [.list names])]⟩]
    fields := [{ name := "id", type := { name := "ID", nullable := false } }] }]

/-- A group that names an unknown field is refused in the documented way. -/
theorem extract_refusals_unknownField :
    extract (groupedDocument [.text "b"]) = .error (.indexGroupField "A" (some "b") "'b'") ∧
      Xor (Documented (groupedDocument [.text "b"]) (.indexGroupField "A" (some "b") "'b'"))
        (Stray (groupedDocument [.text "b"]) (.indexGroupField "A" (some "b") "'b'")) := by
  have h : extract (groupedDocument [.text "b"]) = .error (.indexGroupField "A" (some "b") "'b'") := by
    decide +kernel
  exact ⟨h, extract_refusals h⟩

/-- A group with a list inside is refused by a fault that is none of the pipeline and names no type. -/
theorem nestedGroup_not_documented :
    ∃ fault, extract (groupedDocument [.list [.text "a"]]) = .error fault ∧
      ¬ Documented (groupedDocument [.list [.text "a"]]) fault := by
  refine ⟨.indexGroupNested, by decide +kernel, ?_⟩
  rintro ⟨hfamily, -⟩
  cases hfamily

end SchemaReconcile
