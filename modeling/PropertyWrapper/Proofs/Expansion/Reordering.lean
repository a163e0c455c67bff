import PropertyWrapper.Proofs.Expansion.Agreement
import PropertyWrapper.Proofs.Expansion.Sequence

/-!
# The order of declarations

The order of the statements of a module does not matter for what becomes of each of them, as long as its
wrapper types have different names: a wrapper can also be used in front of its declaration.

* `Registry.resolve_overlay_perm` : writes under different keys can be made in any order;
* `resolve_afterFirst_perm` : references resolve alike after the first pass over reordered statements;
* `provide_perm` : reordered modules get the same imports;
* `SameUpToOrder` : two outcomes report the same in different orders;
* `AgreeUpToOrder` : two expanded modules have the same statements and imports, and report the same;
* `expandModule_perm` : the order of the statements of a module does not matter.
-/

namespace PropertyWrapper

open Source

/-! ## Registries -/

namespace Registry

variable {registry : Registry}

/-- What is written under a key counts if no other write has this key. -/
theorem find?_overlay_of_mem {entries : List (Key × WrapperConfig)} {entry : Key × WrapperConfig}
    (hentry : entry ∈ entries) (hnodup : (entries.map Prod.fst).Nodup) :
    (registry.overlay entries).find? entry.1 = some entry.2 := by
  obtain ⟨before, behind, rfl⟩ := List.append_of_mem hentry
  rw [List.map_append, List.map_cons] at hnodup
  have hbehind := (List.nodup_cons.1 (List.nodup_append.1 hnodup).2.1).1
  refine find?_overlay_of_last fun other hother heq => hbehind ?_
  rw [← heq]
  exact List.mem_map_of_mem hother

theorem find?_overlay_perm {entries entries' : List (Key × WrapperConfig)}
    (hperm : entries.Perm entries') (hnodup : (entries.map Prod.fst).Nodup) (key : Key) :
    (registry.overlay entries).find? key = (registry.overlay entries').find? key := by
  have hnodup' : (entries'.map Prod.fst).Nodup := (hperm.map Prod.fst).nodup_iff.1 hnodup
  by_cases hkey : ∃ entry ∈ entries, entry.1 = key
  · obtain ⟨entry, hentry, rfl⟩ := hkey
    rw [find?_overlay_of_mem hentry hnodup, find?_overlay_of_mem (hperm.mem_iff.1 hentry) hnodup']
  · have hne : ∀ entry ∈ entries, entry.1 ≠ key := fun entry hentry heq => hkey ⟨entry, hentry, heq⟩
    have hne' : ∀ entry ∈ entries', entry.1 ≠ key :=
      fun entry hentry => hne entry (hperm.mem_iff.2 hentry)
    rw [find?_overlay_of_forall_ne hne, find?_overlay_of_forall_ne hne']

/-- Writes under different keys can be made in any order. -/
theorem resolve_overlay_perm {entries entries' : List (Key × WrapperConfig)}
    (hperm : entries.Perm entries') (hnodup : (entries.map Prod.fst).Nodup) :
    (registry.overlay entries).resolve = (registry.overlay entries').resolve := by
  funext name
  cases name with
  | none => rfl
  | some name => simp only [resolve, Option.bind_some, find?_overlay_perm hperm hnodup]

end Registry

/-! ## First pass -/

section Reordered

variable {filename : String} {body body' : List Stmt}

/-- The first pass over reordered statements does the same in another order. -/
theorem introspectBody_perm (hperm : body.Perm body') {marked : List Stmt}
    (h : (introspectBody filename body).result = .ok marked) :
    (∃ marked', (introspectBody filename body').result = .ok marked')
      ∧ (introspectBody filename body).events.Perm (introspectBody filename body').events := by
  simp only [introspectBody_eq_concatMap] at h ⊢
  have hall := Trace.exists_result_concatMap_iff.1 ⟨marked, h⟩
  obtain ⟨marked', hmarked'⟩ := Trace.exists_result_concatMap_iff.2
    fun stmt hstmt => hall stmt (hperm.mem_iff.2 hstmt)
  refine ⟨⟨marked', hmarked'⟩, ?_⟩
  rw [Trace.events_concatMap h, Trace.events_concatMap hmarked']
  exact hperm.flatMap_right _

theorem bodyMarkSites_eq_flatMap (filename : String) (body : List Stmt) :
    bodyMarkSites filename body = body.flatMap (Stmt.markSites filename) := by
  induction body with
  | nil => rfl
  | cons stmt rest ih => rw [bodyMarkSites, List.flatMap_cons, ih]

theorem wrapperTypes_perm (hperm : body.Perm body') :
    (wrapperTypes filename body).Perm (wrapperTypes filename body') := by
  rw [wrapperTypes, wrapperTypes, bodyMarkSites_eq_flatMap, bodyMarkSites_eq_flatMap]
  exact (hperm.flatMap_right _).filterMap _

/-- The keys that the first pass writes are the names of the wrapper types. -/
theorem keys_configEntries {marked : List Stmt}
    (h : (introspectBody filename body).result = .ok marked) :
    (configEntries (introspectBody filename body).events).map Prod.fst
      = ((wrapperTypes filename body).map fun found => found.1.name).map Document.Scalar.text := by
  rw [configEntries, configs_of_introspectBody h, List.map_map, List.map_map, List.map_map]
  rfl

/-- References resolve alike after the first pass over reordered statements, if the wrapper types have
different names. -/
theorem resolve_afterFirst_perm (registry : Registry) (hperm : body.Perm body')
    (hnames : ((wrapperTypes filename body).map fun found => found.1.name).Nodup) {marked : List Stmt}
    (h : (introspectBody filename body).result = .ok marked) :
    (registry.afterFirst filename body).resolve = (registry.afterFirst filename body').resolve := by
  obtain ⟨-, hevents⟩ := introspectBody_perm hperm h
  apply Registry.resolve_overlay_perm ((hevents.filterMap _).map _)
  change ((configEntries _).map Prod.fst).Nodup
  rw [keys_configEntries h]
  exact hnames.map fun name name' heq => Document.Scalar.text.inj heq

end Reordered

/-! ## Imports -/

/-- Events in another order use the same names. -/
theorem usedProvisions_perm {events events' : List Event} (hperm : events.Perm events') :
    usedProvisions events = usedProvisions events' := by
  have hstorages := hperm.filterMap Event.storage?
  have hconfigs := hperm.filterMap Event.config?
  simp only [usedProvisions, hstorages.isEmpty_eq, hstorages.contains_eq, hconfigs.isEmpty_eq]

/-- Reordered modules get the same imports. -/
theorem provide_perm (provisions : List Provision) {body body' : List Stmt} (hperm : body.Perm body') :
    ∃ block, provide provisions body = insertImports block body
      ∧ provide provisions body' = insertImports block body' := by
  refine ⟨_, rfl, ?_⟩
  simp only [provide, hperm.any_eq]

/-! ## Whole modules -/

/-- Two outcomes report the same in different orders. -/
structure SameUpToOrder (outcome outcome' : Outcome) : Prop where
  expanded : outcome.expanded = outcome'.expanded
  configs : outcome.configs.Perm outcome'.configs
  diagnostics : outcome.diagnostics.Perm outcome'.diagnostics

theorem SameUpToOrder.of_events {events events' : List Event} (hperm : events.Perm events')
    (text text' : String) :
    SameUpToOrder (.ofEvents text events) (.ofEvents text' events') where
  expanded := congrArg Int.ofNat (hperm.filterMap Event.storage?).length_eq
  configs := hperm.filterMap Event.config?
  diagnostics := hperm.filterMap Event.diagnostic?

/-- The passes over a module with reordered statements: each statement becomes the same, and the events are
the same in another order. -/
theorem expandTree_perm {registry : Registry} {filename : String} {body body' tree : List Stmt}
    (hperm : body.Perm body')
    (hnames : ((wrapperTypes filename body).map fun found => found.1.name).Nodup)
    (h : (expandTree registry filename body).result = .ok tree) :
    ∃ expansion : Stmt → List Stmt,
      (∀ stmt ∈ body, (bothPasses (registry.afterFirst filename body) filename false [stmt]).result
          = .ok (expansion stmt)
        ∧ (bothPasses (registry.afterFirst filename body') filename false [stmt]).result
          = .ok (expansion stmt))
      ∧ tree = body.flatMap expansion
      ∧ (expandTree registry filename body').result = .ok (body'.flatMap expansion)
      ∧ (expandTree registry filename body).events.Perm (expandTree registry filename body').events := by
  rw [expandTree_eq_bothPasses] at h ⊢
  obtain ⟨marked, hmarked, -⟩ := result_bothPasses.1 h
  have hresolve := resolve_afterFirst_perm registry hperm hnames hmarked
  obtain ⟨hall, htree⟩ := result_bothPasses_iff.1 h
  have hall' : ∀ stmt ∈ body', ∃ group,
      (bothPasses (registry.afterFirst filename body) filename false [stmt]).result = .ok group :=
    fun stmt hstmt => hall stmt (hperm.mem_iff.2 hstmt)
  have h' := result_bothPasses_iff.2 ⟨hall', rfl⟩
  -- The second pass over the reordered statements works as with the other registry.
  rw [expandTree_eq_bothPasses, ← bothPasses_congr hresolve]
  refine ⟨_, fun stmt hstmt => ?_, htree, h', ?_⟩
  · obtain ⟨group, hgroup⟩ := hall stmt hstmt
    rw [← bothPasses_congr hresolve, expansionOf_of_result hgroup]
    exact ⟨hgroup, hgroup⟩
  · exact (events_bothPasses h).trans ((hperm.flatMap_right _).trans (events_bothPasses h').symm)

/-- Two expanded modules with the same statements in different orders agree. -/
structure AgreeUpToOrder (registry : Registry) (filename : String)
    (body body' expanded expanded' : List Stmt) : Prop where
  /-- Each statement becomes the same in both modules, and both get the same imports. -/
  statements : ∃ (expansion : Stmt → List Stmt) (imports : List Stmt),
    (∀ stmt ∈ body, (bothPasses (registry.afterFirst filename body) filename false [stmt]).result
        = .ok (expansion stmt)
      ∧ (bothPasses (registry.afterFirst filename body') filename false [stmt]).result
        = .ok (expansion stmt))
    ∧ expanded = insertImports imports (body.flatMap expansion)
    ∧ expanded' = insertImports imports (body'.flatMap expansion)
  /-- Whatever the texts of the modules are, both expansions report the same. -/
  reports : ∀ text text', SameUpToOrder (.ofEvents text (expandModule registry filename body).events)
    (.ofEvents text' (expandModule registry filename body').events)

/-- If a module with distinct names of wrapper types is expanded, so is one with reordered statements, and
the expanded modules agree. -/
theorem exists_agreeUpToOrder {registry : Registry} {filename : String} {body body' expanded : List Stmt}
    (hperm : body.Perm body')
    (hnames : ((wrapperTypes filename body).map fun found => found.1.name).Nodup)
    (h : (expandModule registry filename body).result = .ok expanded) :
    ∃ expanded', (expandModule registry filename body').result = .ok expanded'
      ∧ AgreeUpToOrder registry filename body body' expanded expanded' := by
  obtain ⟨tree, htree, hprovide, hevents⟩ := expandModule_result h
  obtain ⟨expansion, hall, rfl, htree', hperm'⟩ := expandTree_perm hperm hnames htree
  obtain ⟨imports, himports, himports'⟩ :=
    provide_perm (usedProvisions (expandTree registry filename body).events) (hperm.flatMap_right expansion)
  have hmodule' : expandModule registry filename body'
      = ⟨(expandTree registry filename body').events,
        .ok (insertImports imports (body'.flatMap expansion))⟩ := by
    rw [← himports', usedProvisions_perm hperm', expandModule]
    change (expandTree registry filename body' >>= _) = _
    rw [Trace.bind_of_ok htree', Trace.events_pure, List.append_nil]
    rfl
  rw [himports] at hprovide
  refine ⟨_, by rw [hmodule'], ⟨expansion, imports, hall, hprovide, rfl⟩, ?_⟩
  rw [hmodule', hevents]
  exact SameUpToOrder.of_events hperm'

/-- The order of the statements of a module does not matter, if its wrapper types have different names: it
decides neither whether an expansion succeeds, nor what becomes of a statement, nor what is reported. -/
theorem expandModule_perm (registry : Registry) (filename : String) (body body' : List Stmt)
    (hperm : body.Perm body')
    (hnames : ((wrapperTypes filename body).map fun found => found.1.name).Nodup) :
    ((∃ expanded, (expandModule registry filename body).result = .ok expanded)
      ↔ ∃ expanded', (expandModule registry filename body').result = .ok expanded')
    ∧ ∀ expanded expanded', (expandModule registry filename body).result = .ok expanded →
      (expandModule registry filename body').result = .ok expanded' →
      AgreeUpToOrder registry filename body body' expanded expanded' := by
  have hnames' : ((wrapperTypes filename body').map fun found => found.1.name).Nodup :=
    ((wrapperTypes_perm hperm).map _).nodup_iff.1 hnames
  refine ⟨⟨?_, ?_⟩, ?_⟩
  · rintro ⟨expanded, h⟩
    obtain ⟨expanded', h', -⟩ := exists_agreeUpToOrder hperm hnames h
    exact ⟨expanded', h'⟩
  · rintro ⟨expanded', h'⟩
    obtain ⟨expanded, h, -⟩ := exists_agreeUpToOrder hperm.symm hnames' h'
    exact ⟨expanded, h⟩
  · intro expanded expanded' h h'
    obtain ⟨expanded₁, h₁, hagree⟩ := exists_agreeUpToOrder hperm hnames h
    obtain rfl := Except.ok.inj (h'.symm.trans h₁)
    exact hagree

/-! ## An instance -/

/-- A property in front of the wrapper type that it uses. -/
def earlyUseSource : String :=
  "class A:\n    x: Annotated[int, W]\n@macrofy\nclass W:\n    wrapped_value: int\n"

theorem passes_earlyUseSource :
    ((parseModule earlyUseSource).toOption.map fun body =>
      ((wrapperTypes "m.py" body).map fun found => found.1.name,
        (expandModule .empty "m.py" body).result.toOption.isSome,
        expandedCount (expandModule .empty "m.py" body).events)) = some (["W"], true, 1) := by
  simp only [Direct.parseModule_eq, Direct.expandModule_eq]
  decide +kernel

/-- The property is expanded in front of its wrapper type and behind it. -/
theorem expandModule_perm_earlyUseSource :
    ∃ body expanded expanded', parseModule earlyUseSource = .ok body
      ∧ (expandModule .empty "m.py" body).result = .ok expanded
      ∧ (expandModule .empty "m.py" body.reverse).result = .ok expanded'
      ∧ AgreeUpToOrder .empty "m.py" body body.reverse expanded expanded'
      ∧ expandedCount (expandModule .empty "m.py" body.reverse).events = 1 := by
  obtain ⟨body, hbody, hpasses⟩ := Option.map_eq_some_iff.1 passes_earlyUseSource
  obtain ⟨hnames, hpasses⟩ := Prod.mk.inj hpasses
  obtain ⟨hsome, hcount⟩ := Prod.mk.inj hpasses
  obtain ⟨expanded, hexpanded⟩ := Option.isSome_iff_exists.1 hsome
  have hexpanded := eq_ok_of_toOption hexpanded
  have hnodup : ((wrapperTypes "m.py" body).map fun found => found.1.name).Nodup := by
    rw [hnames]
    exact List.nodup_singleton "W"
  obtain ⟨hsucceeds, hagree⟩ :=
    expandModule_perm .empty "m.py" body body.reverse (List.reverse_perm body).symm hnodup
  obtain ⟨expanded', hexpanded'⟩ := hsucceeds.1 ⟨expanded, hexpanded⟩
  have hagree := hagree expanded expanded' hexpanded hexpanded'
  have hreported : (expandedCount _ : Int) = expandedCount _ := (hagree.reports "" "").expanded
  rw [hcount] at hreported
  exact ⟨body, expanded, expanded', eq_ok_of_toOption hbody, hexpanded, hexpanded', hagree,
    Int.ofNat.inj hreported.symm⟩

end PropertyWrapper
