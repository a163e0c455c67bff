import PropertyWrapper.Command.Action
import PropertyWrapper.Proofs.Registry.Files

/-!
# Refused registry files

A document that is no registry file is refused with all that is found in it, in the order of the paths to
the findings. Paths are compared key by key, and keys of different kinds have no order: the refusal has no
explanation exactly if something is found in the entries of two wrappers with such keys.

* `Scalar.Kind` : the scalars that have an order among themselves;
* `Clash` : paths without an order;
* `Finding.IsAt` : where something can be found in a registry file;
* `HasMixedWrappers`, `Value.HasUnorderedFindings` : the documents whose findings cannot be ordered;
* `registryFile_explained_iff` : all other refusals have an explanation.
-/

namespace PropertyWrapper

open Document Sorting

/-! ## Kinds -/

/-- The kinds of scalars that have an order among themselves. -/
inductive Document.Scalar.Kind where
  | null | number | text | bytes | date
  /-- Moments on clocks whose offset is known, or is not. -/
  | moment (hasOffset : Bool)
deriving DecidableEq, Repr

/-- The kind of a scalar. -/
def Document.Scalar.kind : Scalar → Scalar.Kind
  | .null => .null
  | .bool _ | .int _ | .float _ => .number
  | .text _ | .brokenText _ => .text
  | .bytes _ => .bytes
  | .date _ => .date
  | .moment value => .moment value.offset.isSome

section Kinds

variable {a b : Scalar}

/-- Numbers have an order, also with a value that is not a number. -/
theorem Document.Scalar.compare?_of_rank? {rank other : Option Rank} (ha : a.rank? = some rank)
    (hb : b.rank? = some other) : a.compare? b ≠ none := by
  unfold compare?
  rw [ha, hb]
  cases rank <;> cases other <;> exact Option.some_ne_none _

/-- Scalars have an order exactly if they are of one kind. -/
theorem Document.Scalar.compare?_eq_none_iff : a.compare? b = none ↔ a.kind ≠ b.kind := by
  -- All numbers are of one kind, and for the other pairs the constructors decide.
  cases a <;> cases b <;> first
    | exact iff_of_false (compare?_of_rank? rfl rfl) (not_not.2 rfl)
    | simp [compare?, rank?, kind]

/-- Scalars that are the same key are of one kind. -/
theorem Document.Scalar.kind_eq_of_sameKey (h : a.sameKey b) : a.kind = b.kind := by
  cases a <;> cases b <;> first
    | rfl
    | simp_all [sameKey, integer?, kind, Moment.same]

end Kinds

/-! ## Paths -/

/-- Two paths go to keys of different kinds at their first difference. -/
inductive Clash : List Scalar → List Scalar → Prop where
  | here {a b : Scalar} {as bs : List Scalar} (h : a.kind ≠ b.kind) : Clash (a :: as) (b :: bs)
  | behind {a b : Scalar} {as bs : List Scalar} (hkey : a.sameKey b = true) (h : Clash as bs) :
      Clash (a :: as) (b :: bs)

/-- Paths have no order exactly if they clash. -/
theorem comparePaths?_eq_none_iff {path other : List Scalar} :
    comparePaths? path other = none ↔ Clash path other := by
  induction path generalizing other with
  | nil =>
    refine iff_of_false ?_ nofun
    cases other <;> simp [comparePaths?]
  | cons a as ih =>
    cases other with
    | nil => exact iff_of_false (by simp [comparePaths?]) nofun
    | cons b bs =>
      rw [comparePaths?]
      cases hkey : a.sameKey b with
      | true =>
        rw [if_pos rfl, ih]
        constructor
        · exact .behind hkey
        · rintro (hkind | ⟨-, h⟩)
          · exact absurd (Scalar.kind_eq_of_sameKey hkey) hkind
          · exact h
      | false =>
        rw [if_neg Bool.false_ne_true, Scalar.compare?_eq_none_iff]
        constructor
        · exact .here
        · rintro (hkind | ⟨hsame, -⟩)
          · exact hkind
          · exact absurd (hkey.symm.trans hsame) Bool.false_ne_true

theorem Clash.cases_cons {path other : List Scalar} (h : Clash path other) :
    ∃ a as b bs, path = a :: as ∧ other = b :: bs ∧ (a.kind ≠ b.kind ∨ Clash as bs) := by
  cases h with
  | here hkind => exact ⟨_, _, _, _, rfl, rfl, .inl hkind⟩
  | behind _ h => exact ⟨_, _, _, _, rfl, rfl, .inr h⟩

/-- Paths of texts do not clash. -/
theorem not_clash_of_texts {path other : List Scalar} (hpath : ∀ key ∈ path, key.kind = .text)
    (hother : ∀ key ∈ other, key.kind = .text) : ¬ Clash path other := by
  intro h
  induction h with
  | here h => exact h ((hpath _ List.mem_cons_self).trans (hother _ List.mem_cons_self).symm)
  | behind _ _ ih =>
    exact ih (fun key hkey => hpath key (List.mem_cons_of_mem _ hkey))
      fun key hkey => hother key (List.mem_cons_of_mem _ hkey)

theorem sortByPath?_eq_none_iff {α : Type} {path : α → List Scalar} {items : List α} :
    sortByPath? path items = none ↔ ∃ a ∈ items, ∃ b ∈ items, Clash (path a) (path b) := by
  simp only [← comparePaths?_eq_none_iff]
  rw [sortByPath?]
  split
  · rename_i hall
    simp only [List.all_eq_true] at hall
    refine iff_of_false (Option.some_ne_none _) ?_
    rintro ⟨a, ha, b, hb, hnone⟩
    have hsome := hall a ha b hb
    rw [hnone] at hsome
    cases hsome
  · rename_i hall
    refine iff_of_true rfl ?_
    simpa [Option.isSome_iff_ne_none] using hall

/-! ## Places of findings -/

/-- What is found in a wrapper's entry is found at its path or at a field behind it. -/
theorem path_of_mem_wrapperFindings {path : List Scalar} {value : Value} {finding : Finding}
    (h : finding ∈ wrapperFindings path value) :
    ∃ fields, finding.path = path ++ fields ∧ ∀ key ∈ fields, key.kind = .text := by
  have hhere : finding.path = path → ∃ fields, finding.path = path ++ fields
      ∧ ∀ key ∈ fields, key.kind = .text := fun heq => ⟨[], by rw [heq, List.append_nil], nofun⟩
  unfold wrapperFindings at h
  split at h
  · cases h
  · rcases List.mem_append.1 h with h | h
    · obtain ⟨violation, -, rfl⟩ := List.mem_map.1 h
      exact hhere rfl
    · obtain ⟨field, -, h⟩ := List.mem_flatMap.1 h
      split at h
      · obtain ⟨violation, -, rfl⟩ := List.mem_map.1 h
        exact ⟨[.text field.name], rfl, by simp [Scalar.kind]⟩
      · cases h
  · obtain rfl := List.mem_singleton.1 h
    exact hhere rfl

/-- Where something can be found in a registry file: in the file itself, at one of its keys, or in the
entry of a wrapper. -/
inductive Finding.IsAt (entries : List (Scalar × Value)) (finding : Finding) : Prop where
  | top (hkeys : ∀ key ∈ finding.path, key.kind = .text) (hlength : finding.path.length ≤ 1)
  | wrapper {wrappers : List (Scalar × Value)} {entry : Scalar × Value} {fields : List Scalar}
      (hwrappers : entries.lookup wrappersKey = some (.mapping wrappers)) (hentry : entry ∈ wrappers)
      (hfinding : finding ∈ wrapperFindings [wrappersKey, entry.1] entry.2)
      (hpath : finding.path = wrappersKey :: entry.1 :: fields)
      (hfields : ∀ key ∈ fields, key.kind = .text)

theorem isAt_of_mem {entries : List (Scalar × Value)} {finding : Finding}
    (h : finding ∈ fileFindings entries) : finding.IsAt entries := by
  have htop : ∀ {violations : List Violation} {path : List Scalar},
      finding ∈ violations.map (⟨path, ·⟩) → (∀ key ∈ path, key.kind = .text) →
        path.length ≤ 1 → finding.IsAt entries := by
    intro violations path hmem hkeys hlength
    obtain ⟨violation, -, rfl⟩ := List.mem_map.1 hmem
    exact .top hkeys hlength
  have hnil : ∀ key ∈ ([] : List Scalar), key.kind = .text := by simp
  have hwrappersKey : ∀ key ∈ [wrappersKey], key.kind = .text := by simp [wrappersKey, Scalar.kind]
  have hbuiltinsKey : ∀ key ∈ [builtinsKey], key.kind = .text := by simp [builtinsKey, Scalar.kind]
  rw [fileFindings, List.mem_append, List.mem_append, List.mem_append] at h
  rcases h with ((h | h) | h) | h
  · split at h
    · cases h
    · obtain rfl := List.mem_singleton.1 h
      exact .top hnil (Nat.zero_le _)
  · exact htop h hnil (Nat.zero_le _)
  · exact htop h hbuiltinsKey le_rfl
  · cases hlookup : entries.lookup wrappersKey with
    | none =>
      rw [hlookup] at h
      cases h
    | some table =>
      rw [hlookup, Option.elim_some] at h
      unfold wrappersFindings at h
      split at h
      · rcases List.mem_append.1 h with h | h
        · obtain ⟨entry, -, h⟩ := List.mem_flatMap.1 h
          exact htop h hwrappersKey le_rfl
        · obtain ⟨entry, hentry, h⟩ := List.mem_flatMap.1 h
          obtain ⟨fields, hpath, hfields⟩ := path_of_mem_wrapperFindings h
          exact .wrapper hlookup hentry h hpath hfields
      · obtain rfl := List.mem_singleton.1 h
        exact .top hwrappersKey le_rfl

namespace Finding.IsAt

variable {entries : List (Scalar × Value)} {finding : Finding} {first second : Scalar}
  {behind : List Scalar}

theorem kind_of_path (h : finding.IsAt entries) (hpath : finding.path = first :: behind) :
    first.kind = .text := by
  cases h with
  | top hkeys => exact hkeys first (hpath ▸ List.mem_cons_self)
  | wrapper _ _ _ heq =>
    obtain ⟨rfl, -⟩ := List.cons.inj (heq.symm.trans hpath)
    rfl

/-- A path of two keys or more goes to the entry of a wrapper. -/
theorem wrapper_of_path (h : finding.IsAt entries) (hpath : finding.path = first :: second :: behind) :
    ∃ wrappers, entries.lookup wrappersKey = some (.mapping wrappers)
      ∧ (∀ key ∈ behind, key.kind = .text) ∧ ∃ entry ∈ wrappers, entry.1 = second
        ∧ finding ∈ wrapperFindings [wrappersKey, entry.1] entry.2 := by
  cases h with
  | top _ hlength =>
    rw [hpath] at hlength
    exact absurd hlength (by simp)
  | wrapper hwrappers hentry hfinding heq hfields =>
    obtain ⟨-, hbehind⟩ := List.cons.inj (heq.symm.trans hpath)
    obtain ⟨hkey, rfl⟩ := List.cons.inj hbehind
    exact ⟨_, hwrappers, hfields, _, hentry, hkey, hfinding⟩

end Finding.IsAt

theorem mem_fileFindings_of_wrapper {entries wrappers : List (Scalar × Value)}
    {entry : Scalar × Value} {finding : Finding}
    (hwrappers : entries.lookup wrappersKey = some (.mapping wrappers)) (hentry : entry ∈ wrappers)
    (h : finding ∈ wrapperFindings [wrappersKey, entry.1] entry.2) :
    finding ∈ fileFindings entries := by
  rw [fileFindings, hwrappers]
  refine List.mem_append_right _ (List.mem_append_right _ ?_)
  exact List.mem_flatMap.2 ⟨entry, hentry, h⟩

/-- Wrappers in whose entries something is found, under keys of different kinds. -/
def HasMixedWrappers (wrappers : List (Scalar × Value)) : Prop :=
  ∃ entry ∈ wrappers, ∃ other ∈ wrappers, entry.1.kind ≠ other.1.kind
    ∧ ¬ entry.2.IsWrapperEntry ∧ ¬ other.2.IsWrapperEntry

/-- The findings in a file have no order exactly if they are about wrappers with keys of different
kinds. -/
theorem clash_of_findings_iff {entries : List (Scalar × Value)}
    (hread : (Value.mapping entries).IsRead) :
    (∃ finding ∈ fileFindings entries, ∃ other ∈ fileFindings entries, Clash finding.path other.path)
      ↔ ∃ wrappers, entries.lookup wrappersKey = some (.mapping wrappers)
        ∧ HasMixedWrappers wrappers := by
  obtain ⟨-, hvalues, hapart⟩ := Value.isRead_mapping_iff.1 hread
  have hentryRead : ∀ {wrappers}, entries.lookup wrappersKey = some (.mapping wrappers) →
      ∀ entry ∈ wrappers, entry.2.IsRead := by
    intro wrappers hwrappers
    have hmem := (lookup_eq_some_iff_mem hapart.nodup).1 hwrappers
    exact (Value.isRead_mapping_iff.1 (hvalues _ hmem)).2.1
  constructor
  · rintro ⟨finding, hfinding, other, hother, hclash⟩
    have hat := isAt_of_mem hfinding
    have hat' := isAt_of_mem hother
    -- The first keys are texts, and so the paths go on to wrappers.
    obtain ⟨first, rest, first', rest', hpath, hpath', hfirst⟩ := hclash.cases_cons
    have hrest := hfirst.resolve_left
      (not_not.2 ((hat.kind_of_path hpath).trans (hat'.kind_of_path hpath').symm))
    obtain ⟨key, fields, key', fields', rfl, rfl, hkeys⟩ := hrest.cases_cons
    obtain ⟨wrappers, hwrappers, hfields, entry, hentry, rfl, hfound⟩ := hat.wrapper_of_path hpath
    obtain ⟨_, hwrappers', hfields', entry', hentry', rfl, hfound'⟩ := hat'.wrapper_of_path hpath'
    obtain rfl : wrappers = _ := by simpa using hwrappers.symm.trans hwrappers'
    have hform : ∀ {entry finding}, entry ∈ wrappers →
        finding ∈ wrapperFindings [wrappersKey, entry.1] entry.2 → ¬ entry.2.IsWrapperEntry := by
      intro entry finding hentry hfound hform
      rw [(wrapperFindings_eq_nil_iff (hentryRead hwrappers entry hentry)).2 hform] at hfound
      cases hfound
    exact ⟨wrappers, hwrappers, entry, hentry, entry', hentry',
      hkeys.resolve_right (not_clash_of_texts hfields hfields'), hform hentry hfound,
      hform hentry' hfound'⟩
  · rintro ⟨wrappers, hwrappers, entry, hentry, other, hother, hkinds, hform, hform'⟩
    have hfound : ∀ entry ∈ wrappers, ¬ entry.2.IsWrapperEntry → ∃ finding ∈ fileFindings entries,
        ∃ fields, finding.path = wrappersKey :: entry.1 :: fields := by
      intro entry hentry hform
      have hne : wrapperFindings [wrappersKey, entry.1] entry.2 ≠ [] :=
        fun hnil => hform ((wrapperFindings_eq_nil_iff (hentryRead hwrappers entry hentry)).1 hnil)
      obtain ⟨finding, hmem⟩ := List.exists_mem_of_ne_nil _ hne
      obtain ⟨fields, hpath, -⟩ := path_of_mem_wrapperFindings hmem
      exact ⟨finding, mem_fileFindings_of_wrapper hwrappers hentry hmem, fields, hpath⟩
    obtain ⟨finding, hfinding, fields, hpath⟩ := hfound entry hentry hform
    obtain ⟨finding', hfinding', fields', hpath'⟩ := hfound other hother hform'
    refine ⟨finding, hfinding, finding', hfinding', ?_⟩
    rw [hpath, hpath']
    exact .behind (Scalar.sameKey_self _) (.here hkinds)

/-! ## Refusals -/

theorem reported_eq_unordered_iff {findings : List Finding} :
    reported findings = .error .unordered
      ↔ (∀ finding ∈ findings, finding.violation.isTooLong = false)
        ∧ ∃ finding ∈ findings, ∃ other ∈ findings, Clash finding.path other.path := by
  rw [← sortByPath?_eq_none_iff, reported]
  by_cases hlong : findings.any (·.violation.isTooLong) = true
  · rw [if_pos hlong]
    constructor
    · rintro ⟨⟩
    · rintro ⟨hshort, -⟩
      obtain ⟨finding, hfinding, htrue⟩ := List.any_eq_true.1 hlong
      exact absurd ((hshort finding hfinding).symm.trans htrue) Bool.false_ne_true
  · rw [if_neg hlong]
    have hshort : ∀ finding ∈ findings, finding.violation.isTooLong = false := by
      simpa using hlong
    rw [and_iff_right hshort]
    cases sortByPath? Finding.path findings with
    | none => exact iff_of_true rfl rfl
    | some sorted =>
      dsimp only
      split <;> simp

/-- The findings in a document can all be explained, but not ordered. -/
def Document.Value.HasUnorderedFindings (document : Value) : Prop :=
  ∃ entries wrappers, document = .mapping entries ∧ (wrappersKey, .mapping wrappers) ∈ entries
    ∧ HasMixedWrappers wrappers
    ∧ ∀ finding ∈ fileFindings entries, finding.violation.isTooLong = false

theorem reported_fileFindings_eq_unordered_iff {entries : List (Scalar × Value)}
    (hread : (Value.mapping entries).IsRead) :
    reported (fileFindings entries) = .error .unordered
      ↔ (Value.mapping entries).HasUnorderedFindings := by
  obtain ⟨-, -, hapart⟩ := Value.isRead_mapping_iff.1 hread
  rw [reported_eq_unordered_iff, clash_of_findings_iff hread]
  simp only [lookup_eq_some_iff_mem hapart.nodup]
  constructor
  · rintro ⟨hshort, wrappers, hwrappers, hmixed⟩
    exact ⟨entries, wrappers, rfl, hwrappers, hmixed, hshort⟩
  · rintro ⟨entries', wrappers, heq, hwrappers, hmixed, hshort⟩
    cases heq
    exact ⟨hshort, wrappers, hwrappers, hmixed⟩

/-- A document is refused for want of an order exactly if its findings cannot be ordered. -/
theorem ofValue_eq_unordered_iff {document : Value} (hread : document.IsRead) :
    RegistryFile.ofValue document = .error .unordered ↔ document.HasUnorderedFindings := by
  by_cases hmapping : ∃ entries, document = .mapping entries
  · obtain ⟨entries, rfl⟩ := hmapping
    rw [← reported_fileFindings_eq_unordered_iff hread]
    rcases ofValue_mapping entries with ⟨hnil, -⟩ | ⟨-, error, heq, hcause⟩
    · obtain ⟨file, hfile, -⟩ := exists_ofValue hread ((fileFindings_eq_nil_iff hread).1 hnil)
      rw [hfile, hnil]
      exact iff_of_false nofun nofun
    · rw [heq]
      rcases hcause with hreported | ⟨findings, rfl, hreported⟩
      · rw [hreported, Except.error.injEq, Except.error.injEq]
      · rw [hreported]
        exact iff_of_false nofun nofun
  · refine iff_of_false (fun h => ?_) fun ⟨entries, _, heq, _⟩ => hmapping ⟨entries, heq⟩
    rcases ofValue_of_not_mapping (not_exists.1 hmapping) with heq | ⟨findings, heq⟩ <;>
      cases heq.symm.trans h

/-- A text with a document is read, or it is refused with an explanation, unless something is found in the
entries of two wrappers with keys of different kinds. -/
theorem registryFile_explained_iff {text : String} {content : Content}
    (h : Document.parse text = .ok content) :
    ((∃ file, RegistryFile.parse text = .ok file)
        ∨ ∃ error message, RegistryFile.parse text = .error error
          ∧ Command.refusal? error = some message)
      ↔ ¬ (content.view looksIntoFile 3).HasUnorderedFindings := by
  have hread := Content.isRead_view h looksIntoFile 3
  rw [parse_eq_ofValue h, ← ofValue_eq_unordered_iff hread]
  cases hvalue : RegistryFile.ofValue (content.view looksIntoFile 3) with
  | ok file => exact iff_of_true (.inl ⟨file, rfl⟩) nofun
  | error error =>
    rcases ofValue_error_cases hread hvalue with rfl | ⟨findings, rfl⟩ | rfl | rfl
    · exact iff_of_true (.inr ⟨_, _, rfl, rfl⟩) nofun
    · exact iff_of_true (.inr ⟨_, _, rfl, rfl⟩) nofun
    · refine iff_of_false ?_ (not_not.2 rfl)
      rintro (⟨file, hfile⟩ | ⟨error, message, herror, hmessage⟩)
      · cases hfile
      · cases herror
        cases hmessage
    · exact iff_of_true (.inr ⟨_, _, rfl, rfl⟩) nofun

/-- A registry file with an unknown field for each of two wrappers. -/
def twoUnknownFields : String := "wrappers:\n  Box:\n    colour: 1\n  Tag:\n    size: 2\n"

/-- The explanation, if there is one, why a text is refused. -/
def explanation? (text : String) : Option (Option String) :=
  match RegistryFile.parse text with
  | .ok _ => none
  | .error error => some (Command.refusal? error)

theorem exists_error_of_explanation? {text : String} {explanation : Option String}
    (h : explanation? text = some explanation) :
    ∃ error, RegistryFile.parse text = .error error ∧ Command.refusal? error = explanation := by
  unfold explanation? at h
  split at h
  · cases h
  · rename_i error herror
    exact ⟨error, herror, Option.some.inj h⟩

theorem registryFile_explained_twoUnknownFields :
    ∃ content, Document.parse twoUnknownFields = .ok content
      ∧ ¬ (content.view looksIntoFile 3).HasUnorderedFindings := by
  have hread : (Document.parse twoUnknownFields).toOption.isSome = true := by decide +kernel
  obtain ⟨content, hcontent⟩ := Option.isSome_iff_exists.1 hread
  have hparse := eq_ok_of_toOption hcontent
  refine ⟨content, hparse, (registryFile_explained_iff hparse).1 (.inr ?_)⟩
  have hrefused : explanation? twoUnknownFields = some (some <| "Registry schema validation failed: "
        ++ "wrappers/Box: Additional properties are not allowed ('colour' was unexpected); "
        ++ "wrappers/Tag: Additional properties are not allowed ('size' was unexpected)") := by
    decide +kernel
  obtain ⟨error, herror, hexplained⟩ := exists_error_of_explanation? hrefused
  exact ⟨error, _, herror, hexplained⟩

/-- The same findings under a number and a text have no explanation. -/
theorem mixed_wrappers_unexplained :
    ∃ error, RegistryFile.parse "wrappers:\n  1:\n    colour: 1\n  Tag:\n    size: 2\n" = .error error
      ∧ Command.refusal? error = none := by
  have hrefused : explanation? "wrappers:\n  1:\n    colour: 1\n  Tag:\n    size: 2\n"
      = some none := by
    decide +kernel
  exact exists_error_of_explanation? hrefused

end PropertyWrapper
