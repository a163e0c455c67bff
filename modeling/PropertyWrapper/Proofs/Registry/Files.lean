import PropertyWrapper.Proofs.Registry.Names

/-!
# Registry files that are accepted

A document is a registry file exactly if it has the form of one, and then the file has the wrappers of
the document in their order. The form is checked before anything is read, and what passes the check is
read without a failure.

* `Value.IsRegistryFile` : the form of a registry file;
* `fileFindings_eq_nil_iff` : nothing is found in a document of this form, and in no other;
* `WrapperConfig.IsGivenBy`, `RegistryFile.IsGivenBy` : what a document says about wrappers;
* `ofValue_mapping`, `ofValue_of_not_mapping` : what becomes of a document;
* `registryFile_accepts_form` : the texts that are registry files, and what they give;
* `names_of_registryFile` : the names that a file can give.
-/

namespace PropertyWrapper

open Document Sorting Text

/-! ## Form -/

/-- A truth value. -/
def Document.Value.IsFlag (value : Value) : Prop := ∃ flag, value = .scalar (.bool flag)

/-- A text that is not empty. -/
def Document.Value.IsFilledText (value : Value) : Prop :=
  ∃ scalar text, value = .scalar scalar ∧ scalar.points? = some text ∧ text ≠ []

/-- A value is of the type of a field. -/
def Field.Admits (field : Field) (value : Value) : Prop :=
  match field.type with
  | .flag => value.IsFlag
  | .text => value.IsFilledText

/-- The entry of a wrapper is null, or it gives values to fields. -/
def Document.Value.IsWrapperEntry (value : Value) : Prop :=
  value = .scalar .null ∨ ∃ fields, value = .mapping fields
    ∧ ∀ entry ∈ fields, ∃ field : Field, entry.1 = .text field.name ∧ field.Admits entry.2

/-- Only texts have a form. -/
def Document.Scalar.IsWrapperName (key : Scalar) : Prop :=
  ∀ text, key.points? = some text → dottedNames.IsFoundIn text

/-- The wrappers of a file: entries under names. -/
def Document.Value.IsWrapperTable (value : Value) : Prop :=
  ∃ wrappers, value = .mapping wrappers
    ∧ ∀ entry ∈ wrappers, entry.1.IsWrapperName ∧ entry.2.IsWrapperEntry

/-- A registry file has wrappers, perhaps the flag of the built-in ones, and nothing else. -/
def Document.Value.IsRegistryFile (document : Value) : Prop :=
  ∃ entries, document = .mapping entries ∧ (∃ table, (wrappersKey, table) ∈ entries)
    ∧ ∀ entry ∈ entries, (entry.1 = wrappersKey ∧ entry.2.IsWrapperTable)
      ∨ (entry.1 = builtinsKey ∧ entry.2.IsFlag)

theorem builtinsKey_ne_wrappersKey : builtinsKey ≠ wrappersKey := by decide

/-- A registry file has a table of wrappers. -/
theorem exists_wrapperTable {entries : List (Scalar × Value)}
    (h : (Value.mapping entries).IsRegistryFile) :
    ∃ wrappers, (wrappersKey, .mapping wrappers) ∈ entries
      ∧ ∀ entry ∈ wrappers, entry.1.IsWrapperName ∧ entry.2.IsWrapperEntry := by
  obtain ⟨entries', heq, ⟨table, htable⟩, hentries⟩ := h
  cases heq
  rcases hentries _ htable with ⟨-, wrappers, rfl, hwrappers⟩ | ⟨hkey, -⟩
  · exact ⟨wrappers, htable, hwrappers⟩
  · exact absurd hkey.symm builtinsKey_ne_wrappersKey

/-! ## Violations -/

theorem flagViolations_eq_nil_iff {value : Value} : flagViolations value = [] ↔ value.IsFlag := by
  constructor
  · intro h
    unfold flagViolations at h
    split at h
    · exact ⟨_, rfl⟩
    · cases h
  · rintro ⟨flag, rfl⟩
    rfl

theorem textViolations_eq_nil_iff {value : Value} (hread : value.IsRead) :
    textViolations value = [] ↔ value.IsFilledText := by
  constructor
  · intro h
    unfold textViolations at h
    split at h
    · rename_i text
      split at h
      · cases h
      · rename_i hne
        refine ⟨_, _, rfl, rfl, fun hnil => hne ?_⟩
        rw [points, List.map_eq_nil_iff] at hnil
        exact String.toList_eq_nil_iff.1 hnil
    · rename_i text
      -- A broken text has a lone surrogate.
      cases hread with
      | scalar hscalar =>
        obtain ⟨point, hpoint, -⟩ := exists_isSurrogate_of_isBroken hscalar
        exact ⟨_, _, rfl, rfl, List.ne_nil_of_mem hpoint⟩
    · cases h
  · rintro ⟨scalar, text, rfl, hpoints, hne⟩
    cases scalar with
    | text text =>
      rw [textViolations, if_neg]
      rintro rfl
      exact hne (Option.some.inj hpoints).symm
    | brokenText => rfl
    | null | bool | int | float | bytes | date | moment => cases hpoints

theorem Field.violations_eq_nil_iff {field : Field} {value : Value} (hread : value.IsRead) :
    field.violations value = [] ↔ field.Admits value := by
  rw [Field.violations, Field.Admits]
  cases field.type with
  | flag => exact flagViolations_eq_nil_iff
  | text => exact textViolations_eq_nil_iff hread

theorem unexpectedKeys_eq_nil_iff {isAllowed : Scalar → Bool} {entries : List (Scalar × Value)} :
    unexpectedKeys isAllowed entries = [] ↔ ∀ entry ∈ entries, isAllowed entry.1 = true := by
  have hfilter : (entries.map (·.1)).filter (fun key => !isAllowed key) = []
      ↔ ∀ entry ∈ entries, isAllowed entry.1 = true := by
    simp [List.filter_eq_nil_iff]
  rw [← hfilter, unexpectedKeys]
  split
  · rename_i hnil
    exact iff_of_true rfl hnil
  · rename_i hne
    exact iff_of_false (List.cons_ne_nil _ _) hne

theorem isFieldKey_iff {key : Scalar} :
    isFieldKey key = true ↔ ∃ field : Field, key = .text field.name := by
  simp only [isFieldKey, List.any_eq_true, decide_eq_true_eq]
  constructor
  · rintro ⟨field, -, heq⟩
    exact ⟨field, heq⟩
  · rintro ⟨field, heq⟩
    exact ⟨field, by cases field <;> decide, heq⟩

/-! ## Findings -/

/-- What a mapping has under the name of a field stands in one of its entries. -/
theorem fieldValue?_eq_some_iff {fields : List (Scalar × Value)} (hapart : KeysApart fields)
    {field : Field} {value : Value} :
    fieldValue? fields field = some value ↔ (.text field.name, value) ∈ fields :=
  lookup_eq_some_iff_mem hapart.nodup

/-- Nothing is found in a wrapper's entry exactly if it has the form of one. -/
theorem wrapperFindings_eq_nil_iff {path : List Scalar} {value : Value} (hread : value.IsRead) :
    wrapperFindings path value = [] ↔ value.IsWrapperEntry := by
  cases hread with
  | mapping hkeys hvalues hapart =>
    rename_i fields
    rw [wrapperFindings, List.append_eq_nil_iff, List.map_eq_nil_iff, unexpectedKeys_eq_nil_iff,
      List.flatMap_eq_nil_iff]
    constructor
    · rintro ⟨hknown, hadmits⟩
      refine .inr ⟨fields, rfl, fun entry hentry => ?_⟩
      obtain ⟨field, hkey⟩ := isFieldKey_iff.1 (hknown entry hentry)
      have hmem : (.text field.name, entry.2) ∈ fields := hkey ▸ hentry
      have hvalue := (fieldValue?_eq_some_iff hapart).2 hmem
      have hnil := hadmits field (by cases field <;> decide)
      rw [hvalue] at hnil
      have hviolations := List.map_eq_nil_iff.1 hnil
      exact ⟨field, hkey, (Field.violations_eq_nil_iff (hvalues entry hentry)).1 hviolations⟩
    · rintro (heq | ⟨fields', heq, hentries⟩)
      · cases heq
      · cases heq
        refine ⟨fun entry hentry => ?_, fun field _ => ?_⟩
        · obtain ⟨field, hkey, -⟩ := hentries entry hentry
          exact isFieldKey_iff.2 ⟨field, hkey⟩
        · split
          · rename_i value hvalue
            have hmem := (fieldValue?_eq_some_iff hapart).1 hvalue
            obtain ⟨field', hkey, hadmits⟩ := hentries _ hmem
            obtain rfl := Field.name_injective (Scalar.text.inj hkey)
            rw [(Field.violations_eq_nil_iff (hvalues _ hmem)).2 hadmits, List.map_nil]
          · rfl
  | scalar =>
    rename_i scalar _
    cases scalar <;> simp [wrapperFindings, Value.IsWrapperEntry]
  | sequence | set | pairs | again => simp [wrapperFindings, Value.IsWrapperEntry]

/-- Nothing is found in the wrappers of a file exactly if they have the form of a table. -/
theorem wrappersFindings_eq_nil_iff {value : Value} (hread : value.IsRead) :
    wrappersFindings value = [] ↔ value.IsWrapperTable := by
  cases hread with
  | mapping hkeys hvalues hapart =>
    rename_i wrappers
    have htable : (Value.mapping wrappers).IsWrapperTable
        ↔ ∀ entry ∈ wrappers, entry.1.IsWrapperName ∧ entry.2.IsWrapperEntry := by
      constructor
      · rintro ⟨wrappers', heq, h⟩
        cases heq
        exact h
      · exact fun h => ⟨wrappers, rfl, h⟩
    rw [htable, forall₂_and, wrappersFindings, List.append_eq_nil_iff, List.flatMap_eq_nil_iff,
      List.flatMap_eq_nil_iff]
    refine and_congr (forall₂_congr fun entry hentry => ?_) (forall₂_congr fun entry hentry => ?_)
    · rw [List.map_eq_nil_iff]
      exact nameViolations_eq_nil_iff (hkeys entry hentry)
    · exact wrapperFindings_eq_nil_iff (hvalues entry hentry)
  | scalar | sequence | set | pairs | again => simp [wrappersFindings, Value.IsWrapperTable]

/-- What is found under a key is nothing exactly if nothing is found in the value of the key. -/
theorem elim_lookup_eq_nil_iff {α : Type} {entries : List (Scalar × Value)}
    (hapart : KeysApart entries) {key : Scalar} {found : Value → List α} :
    (entries.lookup key).elim [] found = []
      ↔ ∀ value, (key, value) ∈ entries → found value = [] := by
  simp only [← lookup_eq_some_iff_mem hapart.nodup]
  cases entries.lookup key <;> simp

/-- Nothing is found in a document of the form of a registry file, and in no other. -/
theorem fileFindings_eq_nil_iff {entries : List (Scalar × Value)}
    (hread : (Value.mapping entries).IsRead) :
    fileFindings entries = [] ↔ (Value.mapping entries).IsRegistryFile := by
  obtain ⟨-, hvalues, hapart⟩ := Value.isRead_mapping_iff.1 hread
  have hpresent : (if (entries.lookup wrappersKey).isSome then []
        else [(⟨[], .missing "wrappers"⟩ : Finding)]) = []
      ↔ ∃ table, (wrappersKey, table) ∈ entries := by
    simp only [← lookup_eq_some_iff_mem hapart.nodup]
    cases entries.lookup wrappersKey <;> simp
  have hknown : ∀ key, [builtinsKey, wrappersKey].contains key = true
      ↔ key = builtinsKey ∨ key = wrappersKey := by
    simp
  rw [fileFindings, List.append_eq_nil_iff, List.append_eq_nil_iff, List.append_eq_nil_iff,
    List.map_eq_nil_iff, List.map_eq_nil_iff, unexpectedKeys_eq_nil_iff, hpresent,
    elim_lookup_eq_nil_iff hapart, elim_lookup_eq_nil_iff hapart]
  constructor
  · rintro ⟨⟨⟨htable, hkeys⟩, hflag⟩, hwrappers⟩
    refine ⟨entries, rfl, htable, fun entry hentry => ?_⟩
    rcases (hknown entry.1).1 (hkeys entry hentry) with hkey | hkey
    · have hnil := hflag entry.2 (hkey ▸ hentry)
      exact .inr ⟨hkey, flagViolations_eq_nil_iff.1 hnil⟩
    · have hnil := hwrappers entry.2 (hkey ▸ hentry)
      exact .inl ⟨hkey, (wrappersFindings_eq_nil_iff (hvalues entry hentry)).1 hnil⟩
  · rintro ⟨entries', heq, htable, hentries⟩
    cases heq
    refine ⟨⟨⟨htable, fun entry hentry => ?_⟩, fun value hmem => ?_⟩, fun value hmem => ?_⟩
    · rcases hentries entry hentry with ⟨hkey, -⟩ | ⟨hkey, -⟩
      · exact (hknown entry.1).2 (.inr hkey)
      · exact (hknown entry.1).2 (.inl hkey)
    · rcases hentries _ hmem with ⟨hkey, -⟩ | ⟨-, hflag⟩
      · exact absurd hkey builtinsKey_ne_wrappersKey
      · exact flagViolations_eq_nil_iff.2 hflag
    · rcases hentries _ hmem with ⟨-, hwrappers⟩ | ⟨hkey, -⟩
      · exact (wrappersFindings_eq_nil_iff (hvalues _ hmem)).2 hwrappers
      · exact absurd hkey.symm builtinsKey_ne_wrappersKey

/-! ## What a file gives -/

/-- The value of a field in a configuration. -/
def WrapperConfig.value (config : WrapperConfig) : Field → Value
  | .wrappedIsSettable => .scalar (.bool config.wrappedIsSettable)
  | .projectedIsSettable => .scalar (.bool config.projectedIsSettable)
  | .isReference => .scalar (.bool config.isReference)
  | .wrapperType => .scalar (config.wrapperType.elim .null .ofLoose)
  | .projectedType => .scalar (config.projectedType.elim .null .ofLoose)

/-- A configuration has the values that an entry gives to fields, and the defaults of the others. -/
structure WrapperConfig.IsGivenBy (config : WrapperConfig) (entry : Value) : Prop where
  given : ∀ field value, (.text (Field.name field), value) ∈ entriesOf entry →
    config.value field = value
  missing : ∀ field, (∀ value, (.text (Field.name field), value) ∉ entriesOf entry) →
    config.value field = WrapperConfig.value {} field

/-- A registry file has the wrappers of a document in their order, and its flag, which is set if it is
missing. -/
structure RegistryFile.IsGivenBy (file : RegistryFile) (document : Value) : Prop where
  given : ∀ flag, (builtinsKey, .scalar (.bool flag)) ∈ entriesOf document →
    file.includeBuiltins = flag
  missing : (∀ value, (builtinsKey, value) ∉ entriesOf document) → file.includeBuiltins = true
  wrappers : ∀ table, (wrappersKey, table) ∈ entriesOf document →
    List.Forall₂ (fun wrapper entry => wrapper.1 = entry.1 ∧ wrapper.2.IsGivenBy entry.2)
      file.wrappers (entriesOf table)

theorem value_of_ofMapping {fields : List (Scalar × Value)} {config : WrapperConfig}
    (h : WrapperConfig.ofMapping fields = .ok config) (field : Field) :
    config.value field = match field.type with
      | .flag => .scalar (.bool (fieldFlag fields field))
      | .text => .scalar ((fieldText? fields field).elim .null .ofLoose) := by
  rw [WrapperConfig.ofMapping] at h
  split at h
  · cases h
    cases field <;> rfl
  · cases h

/-- The text of a scalar that was read is that scalar, also with lone surrogates. -/
theorem ofLoose_plain {scalar : Scalar} {text : Points} (hread : scalar.IsRead)
    (h : scalar.points? = some text) : Scalar.ofLoose scalar.plain = scalar := by
  cases scalar with
  | text => rfl
  | brokenText value =>
    have hbroken : isBroken value = true := hread
    rw [Scalar.plain, LooseText.ofPoints, dif_pos hbroken]
    rfl
  | null | bool | int | float | bytes | date | moment => cases h

/-- A value of the type of a field is kept as it is. -/
theorem value_eq_given {fields : List (Scalar × Value)} {config : WrapperConfig} {field : Field}
    {value : Value} (h : WrapperConfig.ofMapping fields = .ok config)
    (hvalue : fieldValue? fields field = some value) (hread : value.IsRead)
    (hadmits : field.Admits value) : config.value field = value := by
  rw [value_of_ofMapping h]
  rw [Field.Admits] at hadmits
  cases htype : field.type with
  | flag =>
    rw [htype] at hadmits
    obtain ⟨flag, rfl⟩ := hadmits
    rw [fieldFlag, hvalue]
    rfl
  | text =>
    rw [htype] at hadmits
    obtain ⟨scalar, text, rfl, hpoints, -⟩ := hadmits
    cases hread with
    | scalar hscalar =>
      have hplain : fieldText? fields field = some scalar.plain := by
        rw [fieldText?, hvalue]
        cases scalar with
        | null => cases hpoints
        | _ => rfl
      rw [hplain]
      exact congrArg Value.scalar (ofLoose_plain hscalar hpoints)

theorem value_eq_default {fields : List (Scalar × Value)} {config : WrapperConfig} {field : Field}
    (h : WrapperConfig.ofMapping fields = .ok config) (hvalue : fieldValue? fields field = none) :
    config.value field = WrapperConfig.value {} field := by
  rw [value_of_ofMapping h]
  rw [fieldFlag, fieldText?, hvalue]
  cases field <;> rfl

/-- What has the form of a wrapper's entry is read. -/
theorem exists_ofEntry (wrapper : Scalar) {entry : Value} (hread : entry.IsRead)
    (h : entry.IsWrapperEntry) :
    ∃ config, WrapperConfig.ofEntry wrapper entry = .ok config ∧ config.IsGivenBy entry := by
  obtain rfl | ⟨fields, rfl, hfields⟩ := h
  · exact ⟨{}, rfl, ⟨nofun, fun _ _ => rfl⟩⟩
  obtain ⟨-, hvalues, hapart⟩ := Value.isRead_mapping_iff.1 hread
  have hknown : (fields.map (·.1)).filter (fun key => !isFieldKey key) = [] := by
    rw [List.filter_eq_nil_iff]
    intro key hkey
    obtain ⟨entry, hentry, rfl⟩ := List.mem_map.1 hkey
    obtain ⟨field, hname, -⟩ := hfields entry hentry
    simp [isFieldKey_iff.2 ⟨field, hname⟩]
  obtain ⟨config, hconfig⟩ : ∃ config, WrapperConfig.ofMapping fields = .ok config := by
    rw [WrapperConfig.ofMapping, hknown]
    exact ⟨_, rfl⟩
  refine ⟨config, mapError_eq_ok_iff.2 hconfig, ⟨fun field value hmem => ?_, fun field hnone => ?_⟩⟩
  · obtain ⟨field', hname, hadmits⟩ := hfields _ hmem
    obtain rfl := Field.name_injective (Scalar.text.inj hname)
    exact value_eq_given hconfig ((fieldValue?_eq_some_iff hapart).2 hmem) (hvalues _ hmem) hadmits
  · refine value_eq_default hconfig (Option.eq_none_iff_forall_ne_some.2 fun value hvalue => ?_)
    exact hnone value ((fieldValue?_eq_some_iff hapart).1 hvalue)

/-- What has the form of a table of wrappers is read, entry by entry. -/
theorem exists_mapM_ofEntry {wrappers : List (Scalar × Value)}
    (h : ∀ entry ∈ wrappers, entry.2.IsRead ∧ entry.2.IsWrapperEntry) :
    ∃ read, (wrappers.mapM fun entry => do
        return (entry.1, ← WrapperConfig.ofEntry entry.1 entry.2)) = .ok read
      ∧ List.Forall₂ (fun wrapper entry => wrapper.1 = entry.1 ∧ wrapper.2.IsGivenBy entry.2)
        read wrappers := by
  have hsteps : ∀ entry ∈ wrappers, ∃ wrapper,
      (do return (entry.1, ← WrapperConfig.ofEntry entry.1 entry.2)) = Except.ok wrapper := by
    intro entry hentry
    obtain ⟨hread, hform⟩ := h entry hentry
    obtain ⟨config, hconfig, -⟩ := exists_ofEntry entry.1 hread hform
    exact ⟨(entry.1, config), bind_eq_ok_iff.2 ⟨config, hconfig, rfl⟩⟩
  obtain ⟨read, hmapM⟩ := mapM_eq_ok_of_forall hsteps
  have hpairs := (List.forall₂_and_left _ _).2 ⟨h, mapM_eq_ok_iff_forall₂.1 hmapM⟩
  refine ⟨read, hmapM, (hpairs.imp ?_).flip⟩
  rintro entry wrapper ⟨⟨hread, hform⟩, hstep⟩
  obtain ⟨config, hconfig, heq⟩ := bind_eq_ok_iff.1 hstep
  cases heq
  obtain ⟨config', hconfig', hgiven⟩ := exists_ofEntry entry.1 hread hform
  obtain rfl := Except.ok.inj (hconfig.symm.trans hconfig')
  exact ⟨rfl, hgiven⟩

/-- What has the form of a registry file is read. -/
theorem exists_ofEntries {entries : List (Scalar × Value)} (hread : (Value.mapping entries).IsRead)
    (h : (Value.mapping entries).IsRegistryFile) :
    ∃ file, RegistryFile.ofEntries entries = .ok file ∧ file.IsGivenBy (.mapping entries) := by
  obtain ⟨-, hvalues, hapart⟩ := Value.isRead_mapping_iff.1 hread
  obtain ⟨wrappers, htable, hform⟩ := exists_wrapperTable h
  have hwrapper : ∀ entry ∈ wrappers, entry.2.IsRead ∧ entry.2.IsWrapperEntry := by
    intro entry hentry
    obtain ⟨-, hread, -⟩ := Value.isRead_mapping_iff.1 (hvalues _ htable)
    exact ⟨hread entry hentry, (hform entry hentry).2⟩
  obtain ⟨read, hmapM, hgiven⟩ := exists_mapM_ofEntry hwrapper
  have hlookup := (lookup_eq_some_iff_mem hapart.nodup).2 htable
  refine ⟨_, bind_eq_ok_iff.2 ⟨read, ?_, rfl⟩, fun flag hflag => ?_, fun hnone => ?_,
    fun table hmem => ?_⟩
  · rw [hlookup]
    exact hmapM
  · rw [(lookup_eq_some_iff_mem hapart.nodup).2 hflag]
    rfl
  · have hmissing : entries.lookup builtinsKey = none := by
      refine Option.eq_none_iff_forall_ne_some.2 fun value hvalue => ?_
      exact hnone value ((lookup_eq_some_iff_mem hapart.nodup).1 hvalue)
    rw [hmissing]
    rfl
  · have hsame := hlookup.symm.trans ((lookup_eq_some_iff_mem hapart.nodup).2 hmem)
    obtain rfl := Option.some.inj hsame
    exact hgiven

/-! ## Documents -/

/-- The report has all findings. -/
theorem perm_of_reported {findings sorted : List Finding} (h : reported findings = .ok sorted) :
    sorted.Perm findings := by
  rw [reported] at h
  split at h
  · cases h
  split at h
  · cases h
  rename_i heq
  split at h
  · cases h
  cases h
  rw [sortByPath?] at heq
  split at heq
  · cases heq
    exact sortStably_perm _ _
  · cases heq

theorem reported_error_cases {findings : List Finding} {error : RegistryFileError}
    (h : reported findings = .error error) : error = .unordered ∨ error = .tooManyDigits := by
  rw [reported] at h
  split at h
  · cases h
    exact .inr rfl
  split at h
  · cases h
    exact .inl rfl
  split at h
  · cases h
    exact .inr rfl
  · cases h

/-- What becomes of a mapping with a report of the findings in it. -/
def RegistryFile.ofReport (entries : List (Scalar × Value)) :
    List Finding → Except RegistryFileError RegistryFile
  | [] => RegistryFile.ofEntries entries
  | finding :: rest => .error (.invalid (finding :: rest))

/-- A mapping is read if nothing is found in it, and refused with what is found otherwise. -/
theorem ofValue_mapping (entries : List (Scalar × Value)) :
    (fileFindings entries = []
        ∧ RegistryFile.ofValue (.mapping entries) = RegistryFile.ofEntries entries)
      ∨ fileFindings entries ≠ [] ∧ ∃ error, RegistryFile.ofValue (.mapping entries) = .error error
        ∧ (reported (fileFindings entries) = .error error ∨ ∃ findings, error = .invalid findings
          ∧ reported (fileFindings entries) = .ok findings) := by
  have heq : RegistryFile.ofValue (.mapping entries)
      = reported (fileFindings entries) >>= RegistryFile.ofReport entries := by
    -- A mapping without entries counts as false, and then it is an empty mapping.
    cases entries <;> exact bind_congr fun findings => by cases findings <;> rfl
  rw [heq]
  by_cases hnil : fileFindings entries = []
  · rw [hnil]
    exact .inl ⟨rfl, rfl⟩
  · refine .inr ⟨hnil, ?_⟩
    cases hreported : reported (fileFindings entries) with
    | error error => exact ⟨error, rfl, .inl rfl⟩
    | ok findings =>
      cases findings with
      | nil => exact absurd (perm_of_reported hreported).nil_eq.symm hnil
      | cons finding rest => exact ⟨_, rfl, .inr ⟨_, rfl, rfl⟩⟩

/-- What is no mapping is refused; if it counts as false, for what an empty mapping lacks. -/
theorem ofValue_of_not_mapping {document : Value} (h : ∀ entries, document ≠ .mapping entries) :
    RegistryFile.ofValue document = .error .notMapping
      ∨ ∃ findings, RegistryFile.ofValue document = .error (.invalid findings) := by
  rw [RegistryFile.ofValue]
  cases document.isTruthy with
  | false => exact .inr ⟨_, rfl⟩
  | true =>
    cases document with
    | mapping entries => exact absurd rfl (h entries)
    | scalar | sequence | set | pairs | again => exact .inl rfl

/-- A document is read exactly if it is a mapping in which nothing is found. -/
theorem ofValue_eq_ok_iff {document : Value} {file : RegistryFile} :
    RegistryFile.ofValue document = .ok file ↔ ∃ entries, document = .mapping entries
      ∧ fileFindings entries = [] ∧ RegistryFile.ofEntries entries = .ok file := by
  constructor
  · intro h
    by_cases hmapping : ∃ entries, document = .mapping entries
    · obtain ⟨entries, rfl⟩ := hmapping
      rcases ofValue_mapping entries with ⟨hnil, heq⟩ | ⟨-, error, heq, -⟩
      · exact ⟨entries, rfl, hnil, heq.symm.trans h⟩
      · cases heq.symm.trans h
    · rcases ofValue_of_not_mapping (not_exists.1 hmapping) with heq | ⟨findings, heq⟩ <;>
        cases heq.symm.trans h
  · rintro ⟨entries, rfl, hnil, h⟩
    rcases ofValue_mapping entries with ⟨-, heq⟩ | ⟨hne, -⟩
    · exact heq.trans h
    · exact absurd hnil hne

/-- What a document of the form of a registry file is read as. -/
theorem exists_ofValue {document : Value} (hread : document.IsRead) (h : document.IsRegistryFile) :
    ∃ file, RegistryFile.ofValue document = .ok file ∧ file.IsGivenBy document := by
  obtain ⟨entries, rfl, -⟩ := id h
  obtain ⟨file, hfile, hgiven⟩ := exists_ofEntries hread h
  exact ⟨file, ofValue_eq_ok_iff.2 ⟨entries, rfl, (fileFindings_eq_nil_iff hread).2 h, hfile⟩, hgiven⟩

/-- Only documents of the form of a registry file are read. -/
theorem isRegistryFile_of_ofValue {document : Value} {file : RegistryFile} (hread : document.IsRead)
    (h : RegistryFile.ofValue document = .ok file) : document.IsRegistryFile := by
  obtain ⟨entries, rfl, hnil, -⟩ := ofValue_eq_ok_iff.1 h
  exact (fileFindings_eq_nil_iff hread).1 hnil

theorem isGivenBy_of_ofValue {document : Value} {file : RegistryFile} (hread : document.IsRead)
    (h : RegistryFile.ofValue document = .ok file) : file.IsGivenBy document := by
  obtain ⟨file', hfile', hgiven⟩ := exists_ofValue hread (isRegistryFile_of_ofValue hread h)
  obtain rfl := Except.ok.inj (h.symm.trans hfile')
  exact hgiven

/-- The refusals of a document are those of its form. -/
theorem ofValue_error_cases {document : Value} {error : RegistryFileError} (hread : document.IsRead)
    (h : RegistryFile.ofValue document = .error error) :
    error = .notMapping ∨ (∃ findings, error = .invalid findings) ∨ error = .unordered
      ∨ error = .tooManyDigits := by
  by_cases hmapping : ∃ entries, document = .mapping entries
  · obtain ⟨entries, rfl⟩ := hmapping
    rcases ofValue_mapping entries with ⟨hnil, -⟩ | ⟨-, cause, heq, hcause⟩
    · obtain ⟨file, hfile, -⟩ := exists_ofValue hread ((fileFindings_eq_nil_iff hread).1 hnil)
      cases hfile.symm.trans h
    · obtain rfl := Except.error.inj (heq.symm.trans h)
      rcases hcause with hreported | ⟨findings, rfl, -⟩
      · exact .inr (.inr (reported_error_cases hreported))
      · exact .inr (.inl ⟨findings, rfl⟩)
  · rcases ofValue_of_not_mapping (not_exists.1 hmapping) with heq | ⟨findings, heq⟩
    · exact .inl (Except.error.inj (h.symm.trans heq))
    · exact .inr (.inl ⟨findings, Except.error.inj (h.symm.trans heq)⟩)

theorem parse_eq_ofValue {text : String} {content : Content} (h : Document.parse text = .ok content) :
    RegistryFile.parse text = RegistryFile.ofValue (content.view looksIntoFile 3) := by
  rw [RegistryFile.parse, h]
  rfl

/-- A text is a registry file exactly if its document has the form of one. It then has the wrappers of the
document in their order, with the given values or the defaults. The checks of the fields and of the entry
while a wrapper is read never fail. -/
theorem registryFile_accepts_form {text : String} {content : Content}
    (h : Document.parse text = .ok content) :
    ((∃ file, RegistryFile.parse text = .ok file) ↔ (content.view looksIntoFile 3).IsRegistryFile)
      ∧ (∀ file, RegistryFile.parse text = .ok file →
        file.IsGivenBy (content.view looksIntoFile 3))
      ∧ ∀ error, RegistryFile.parse text = .error error →
        (∀ wrapper, error ≠ .noMapping wrapper) ∧ ∀ unknown, error ≠ .unknownFields unknown := by
  have hread := Content.isRead_view h looksIntoFile 3
  rw [parse_eq_ofValue h]
  refine ⟨⟨?_, fun hform => ?_⟩, fun file hfile => ?_, fun error herror => ?_⟩
  · rintro ⟨file, hfile⟩
    exact isRegistryFile_of_ofValue hread hfile
  · obtain ⟨file, hfile, -⟩ := exists_ofValue hread hform
    exact ⟨file, hfile⟩
  · exact isGivenBy_of_ofValue hread hfile
  · rcases ofValue_error_cases hread herror with rfl | ⟨findings, rfl⟩ | rfl | rfl <;>
      exact ⟨nofun, nofun⟩

/-- A registry file with two wrappers. -/
def boxAndTag : String := "include_builtins: false\nwrappers:\n  Box:\n    wrapper_type: Cell\n  Tag:\n"

theorem parse_boxAndTag : RegistryFile.parse boxAndTag
    = .ok ⟨false, [(.text "Box", { wrapperType := some "Cell" }), (.text "Tag", {})]⟩ :=
  eq_ok_of_toOption (by decide +kernel)

theorem registryFile_accepts_form_boxAndTag :
    ∃ content file, Document.parse boxAndTag = .ok content
      ∧ RegistryFile.parse boxAndTag = .ok file
      ∧ (content.view looksIntoFile 3).IsRegistryFile
      ∧ file.IsGivenBy (content.view looksIntoFile 3)
      ∧ file = ⟨false, [(.text "Box", { wrapperType := some "Cell" }), (.text "Tag", {})]⟩ := by
  obtain ⟨content, hcontent, -⟩ := bind_eq_ok_iff.1 parse_boxAndTag
  have hparse := mapError_eq_ok_iff.1 hcontent
  obtain ⟨hform, hgiven, -⟩ := registryFile_accepts_form hparse
  exact ⟨content, _, hparse, parse_boxAndTag, hform.1 ⟨_, parse_boxAndTag⟩,
    hgiven _ parse_boxAndTag, rfl⟩

/-! ## Names -/

/-- The names of a file are the keys of a table of wrappers. -/
theorem exists_wrapperTable_of_parse {text : String} {file : RegistryFile}
    (h : RegistryFile.parse text = .ok file) :
    ∃ wrappers : List (Scalar × Value), KeysApart wrappers
      ∧ (∀ entry ∈ wrappers, entry.1.IsWrapperName)
      ∧ file.wrappers.map (·.1) = wrappers.map (·.1) := by
  obtain ⟨content, hparse, hvalue⟩ := bind_eq_ok_iff.1 h
  have hread := Content.isRead_view (mapError_eq_ok_iff.1 hparse) looksIntoFile 3
  have hgiven := isGivenBy_of_ofValue hread hvalue
  obtain ⟨entries, hdocument, hnil, -⟩ := ofValue_eq_ok_iff.1 hvalue
  rw [hdocument] at hread hgiven
  obtain ⟨wrappers, htable, hform⟩ := exists_wrapperTable ((fileFindings_eq_nil_iff hread).1 hnil)
  obtain ⟨-, hvalues, -⟩ := Value.isRead_mapping_iff.1 hread
  obtain ⟨-, -, hapart⟩ := Value.isRead_mapping_iff.1 (hvalues _ htable)
  refine ⟨wrappers, hapart, fun entry hentry => (hform entry hentry).1, ?_⟩
  have hkeys := (hgiven.wrappers _ htable).imp fun _ _ h => h.1
  rw [← List.forall₂_eq_eq_eq, List.forall₂_map_left_iff, List.forall₂_map_right_iff]
  exact hkeys

/-- The keys of a file are pairwise different. -/
theorem keysApart_of_parse {text : String} {file : RegistryFile}
    (h : RegistryFile.parse text = .ok file) : KeysApart file.wrappers := by
  obtain ⟨wrappers, hapart, -, hkeys⟩ := exists_wrapperTable_of_parse h
  have hpairwise : (file.wrappers.map (·.1)).Pairwise fun key other => ¬ key.sameKey other := by
    rw [hkeys, List.pairwise_map]
    exact hapart
  exact List.pairwise_map.1 hpairwise

/-- The names of a file are pairwise different, and each is a dotted name of ASCII identifiers, or one
that is followed by a line feed, or no text at all. -/
theorem names_of_registryFile {text : String} {file : RegistryFile}
    (h : RegistryFile.parse text = .ok file) :
    KeysApart file.wrappers ∧ ∀ wrapper ∈ file.wrappers,
      (∃ name, wrapper.1.points? = some name ∧ IsDottedName name)
        ∨ (∃ name, wrapper.1.points? = some (name ++ ['\n'.toNat]) ∧ IsDottedName name)
        ∨ wrapper.1.points? = none := by
  refine ⟨keysApart_of_parse h, fun wrapper hwrapper => ?_⟩
  obtain ⟨wrappers, -, hform, hkeys⟩ := exists_wrapperTable_of_parse h
  have hkey : wrapper.1 ∈ wrappers.map (·.1) := hkeys ▸ List.mem_map_of_mem hwrapper
  obtain ⟨entry, hentry, hsame⟩ := List.mem_map.1 hkey
  have hname := hform entry hentry
  rw [hsame] at hname
  cases hpoints : wrapper.1.points? with
  | none => exact .inr (.inr rfl)
  | some points =>
    rcases isFoundIn_dottedNames_iff.1 (hname points hpoints) with hdotted | ⟨name, hdotted, rfl⟩
    · exact .inl ⟨points, rfl, hdotted⟩
    · exact .inr (.inl ⟨name, rfl, hdotted⟩)

theorem names_of_registryFile_boxAndTag :
    ∃ file, RegistryFile.parse boxAndTag = .ok file ∧ KeysApart file.wrappers
      ∧ ∃ wrapper ∈ file.wrappers, ∃ name, wrapper.1.points? = some name ∧ IsDottedName name := by
  obtain ⟨hapart, hnames⟩ := names_of_registryFile parse_boxAndTag
  refine ⟨_, parse_boxAndTag, hapart, _, List.mem_cons_self, ?_⟩
  obtain h | ⟨name, hname, -⟩ | hnone := hnames _ List.mem_cons_self
  · exact h
  · have hlast := congrArg List.getLast? (Option.some.inj hname)
    rw [List.getLast?_concat] at hlast
    exact absurd hlast (by decide)
  · cases hnone

/-- A name may end with a line feed, and a number may be one. -/
theorem names_not_dotted :
    ∃ file, RegistryFile.parse "wrappers:\n  \"Box\\n\":\n  1:\n" = .ok file
      ∧ ∃ wrapper ∈ file.wrappers, ∃ other ∈ file.wrappers,
        wrapper.1 = .text "Box\n" ∧ ¬ IsDottedName (points "Box\n")
          ∧ other.1 = .int 1 ∧ other.1.points? = none := by
  have hfile : (RegistryFile.parse "wrappers:\n  \"Box\\n\":\n  1:\n").toOption
      = some ⟨true, [(.text "Box\n", {}), (.int 1, {})]⟩ := by
    decide +kernel
  refine ⟨_, eq_ok_of_toOption hfile, _, List.mem_cons_self, _,
    List.mem_cons_of_mem _ List.mem_cons_self, rfl, fun h => ?_, rfl, rfl⟩
  exact h.break_not_mem (by decide)

end PropertyWrapper
