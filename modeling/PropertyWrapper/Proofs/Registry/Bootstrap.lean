import PropertyWrapper.Proofs.Registry.Plugins

/-!
# Repeated calls for plugins

A call for the plugins that fails keeps what it has registered, and the next call starts again with the
first plugin. So registrations are run once only as long as no such call is repeated, and a module that
was missing can be added afterwards only if nothing was registered before it.

* `Session.OnlyAdds` : operations that change the modules only by adding some;
* `Session.RepeatsLate` : a call that failed after it had run a registration is repeated;
* `Session.LacksOnly` : a session whose plugins can be loaded but for one missing module;
* `nodup_called_iff` : registrations are run at most once unless such a call is repeated;
* `result_retry_iff` : when a call succeeds after the missing module was added;
* `plugins_called_once_iff` : both together.
-/

namespace PropertyWrapper

namespace Session

/-! ## Histories -/

/-- Whether an operation leaves the list of plugins and the modules as they are, but for new modules. -/
def Adds (session : Session) : Operation → Prop
  | .define plugin => ∀ other ∈ session.available, other.name ≠ plugin.name
  | .bootstrap listed => listed = none
  | _ => True

/-- Operations that leave the list of plugins and the modules as they are, but for new modules. -/
def OnlyAdds : Session → List Operation → Prop
  | _, [] => True
  | session, operation :: rest => session.Adds operation ∧ OnlyAdds (session.step operation).1 rest

/-- A call for the plugins would run a registration and fail. -/
structure FailsLate (session : Session) : Prop where
  notLoaded : session.hasLoadedPlugins = false
  fails : session.loading.result ≠ .ok ()
  calls : session.loading.called ≠ []

/-- A call for the plugins that fails after it has run a registration is repeated. -/
inductive RepeatsLate : Session → List Operation → Prop
  | here {session : Session} {rest : List Operation} (hfails : session.FailsLate)
      (hagain : .bootstrap none ∈ rest) : RepeatsLate session (.bootstrap none :: rest)
  | later {session : Session} {operation : Operation} {rest : List Operation}
      (hrest : RepeatsLate (session.step operation).1 rest) : RepeatsLate session (operation :: rest)

theorem run_cons (session : Session) (operation : Operation) (rest : List Operation) :
    session.run (operation :: rest) = (session.step operation).1.run rest := rfl

/-- How an operation that only adds modules changes what a session holds of plugins. -/
theorem plugins_of_adds {session : Session} {operation : Operation} (h : session.Adds operation)
    (hbootstrap : operation ≠ .bootstrap none) :
    ∃ added : List Plugin, (session.step operation).1.plugins
        = (added ++ session.available, session.listed, session.hasLoadedPlugins, session.called)
      ∧ ∀ names name, firstCallable session.available names = some name →
        firstCallable (added ++ session.available) names = some name := by
  by_cases hdefine : ∃ plugin, operation = .define plugin
  · obtain ⟨plugin, rfl⟩ := hdefine
    exact ⟨[plugin], rfl, fun names name => firstCallable_cons h⟩
  · refine ⟨[], ?_, fun names name hfirst => hfirst⟩
    refine plugins_step (fun plugin heq => hdefine ⟨plugin, heq⟩) fun listed heq => hbootstrap ?_
    rw [heq] at h ⊢
    exact congrArg Operation.bootstrap h

/-- What a call for the plugins does to a session in which they are not loaded. -/
theorem step_bootstrap_of_not_loaded {session : Session} (h : session.hasLoadedPlugins = false) :
    (session.step (.bootstrap none)).1 = { session with
      shared := session.loading.registry
      called := session.called ++ session.loading.called
      hasLoadedPlugins := session.loading.result.isOk } := by
  rw [step_bootstrap]
  change session.bootstrap.1 = _
  rw [bootstrap_of_not_loaded h]

theorem step_bootstrap_of_loaded {session : Session} (h : session.hasLoadedPlugins = true) :
    (session.step (.bootstrap none)).1 = session := by
  rw [step_bootstrap]
  change session.bootstrap.1 = _
  rw [bootstrap_of_loaded h]

/-! ## Registrations that are run -/

/-- No operation takes back that a registration was run. -/
theorem called_prefix_step {session : Session} {operation : Operation} (h : session.Adds operation) :
    session.called <+: (session.step operation).1.called := by
  by_cases hbootstrap : operation = .bootstrap none
  · subst hbootstrap
    cases hloaded : session.hasLoadedPlugins with
    | true => rw [step_bootstrap_of_loaded hloaded]
    | false =>
      rw [step_bootstrap_of_not_loaded hloaded]
      exact List.prefix_append _ _
  · obtain ⟨added, hplugins, -⟩ := plugins_of_adds h hbootstrap
    have hcalled : (session.step operation).1.called = session.called := congrArg (·.2.2.2) hplugins
    rw [hcalled]

theorem called_prefix_run {session : Session} {operations : List Operation}
    (h : session.OnlyAdds operations) : session.called <+: (session.run operations).called := by
  induction operations generalizing session with
  | nil => exact List.prefix_rfl
  | cons operation rest ih => exact (called_prefix_step h.1).trans (ih h.2)

/-- Once the plugins are loaded no registration is run any more. -/
theorem called_run_of_loaded {session : Session} {operations : List Operation}
    (hadds : session.OnlyAdds operations) (h : session.hasLoadedPlugins = true) :
    (session.run operations).called = session.called := by
  induction operations generalizing session with
  | nil => rfl
  | cons operation rest ih =>
    obtain ⟨hoperation, hrest⟩ := hadds
    rw [run_cons]
    by_cases hbootstrap : operation = .bootstrap none
    · subst hbootstrap
      rw [step_bootstrap_of_loaded h] at hrest ⊢
      exact ih hrest h
    · obtain ⟨added, hplugins, -⟩ := plugins_of_adds hoperation hbootstrap
      have hloaded : (session.step operation).1.hasLoadedPlugins = session.hasLoadedPlugins :=
        congrArg (·.2.2.1) hplugins
      exact (ih hrest (hloaded.trans h)).trans (congrArg (·.2.2.2) hplugins)

/-- Without a call for the plugins no registration is run. -/
theorem called_run_of_not_mem {session : Session} {operations : List Operation}
    (hadds : session.OnlyAdds operations) (h : .bootstrap none ∉ operations) :
    (session.run operations).called = session.called := by
  induction operations generalizing session with
  | nil => rfl
  | cons operation rest ih =>
    obtain ⟨hoperation, hrest⟩ := hadds
    rw [List.mem_cons, not_or] at h
    obtain ⟨added, hplugins, -⟩ := plugins_of_adds hoperation (Ne.symm h.1)
    exact (ih hrest h.2).trans (congrArg (·.2.2.2) hplugins)

/-- A call runs each registration of distinct plugins at most once. -/
theorem nodup_called_loading {session : Session} (h : (pluginNames session.listed).Nodup) :
    session.loading.called.Nodup :=
  h.sublist (called_sublist session.available session.shared _)

/-- If a registration was run first by a call that failed, a further call runs it again. -/
theorem not_nodup_of_called_again {session : Session} {operations : List Operation} {name : String}
    (hadds : session.OnlyAdds operations) (hloaded : session.hasLoadedPlugins = false)
    (hname : name ∈ session.called)
    (hfirst : firstCallable session.available (pluginNames session.listed) = some name)
    (hagain : .bootstrap none ∈ operations) : ¬(session.run operations).called.Nodup := by
  -- The calls come in some order, and new modules may come in between: the first registration to be run
  -- stays the same one, up to the next call.
  induction operations generalizing session with
  | nil => cases hagain
  | cons operation rest ih =>
    obtain ⟨hoperation, hrest⟩ := hadds
    rw [run_cons]
    by_cases hbootstrap : operation = .bootstrap none
    · subst hbootstrap
      intro hnodup
      have hnodup := hnodup.sublist (called_prefix_run hrest).sublist
      rw [step_bootstrap_of_not_loaded hloaded] at hnodup
      rw [← head?_called session.available session.shared] at hfirst
      exact (List.nodup_append.1 hnodup).2.2 name hname name (List.mem_of_mem_head? hfirst) rfl
    · obtain ⟨added, hplugins, hcallable⟩ := plugins_of_adds hoperation hbootstrap
      have havailable : (session.step operation).1.available = added ++ session.available :=
        congrArg (·.1) hplugins
      have hlisted : (session.step operation).1.listed = session.listed := congrArg (·.2.1) hplugins
      have hcalled : (session.step operation).1.called = session.called := congrArg (·.2.2.2) hplugins
      refine ih hrest ((congrArg (·.2.2.1) hplugins).trans hloaded) (hcalled ▸ hname) ?_
        ((List.mem_cons.1 hagain).resolve_left (Ne.symm hbootstrap))
      rw [havailable, hlisted]
      exact hcallable _ _ hfirst

/-- A call that failed late and is repeated runs a registration twice. -/
theorem not_nodup_of_repeatsLate {session : Session} {operations : List Operation}
    (hadds : session.OnlyAdds operations) (h : session.RepeatsLate operations) :
    ¬(session.run operations).called.Nodup := by
  induction h with
  | here hfails hagain =>
    rename_i session rest
    obtain ⟨name, hname⟩ := Option.ne_none_iff_exists'.1 (mt List.head?_eq_none_iff.1 hfails.calls)
    have hfirst : firstCallable session.available (pluginNames session.listed) = some name :=
      (head?_called session.available session.shared _).symm.trans hname
    have hfailed : session.loading.result.isOk = false := by
      cases hresult : session.loading.result with
      | error error => rfl
      | ok => exact absurd hresult hfails.fails
    have hrest := hadds.2
    rw [run_cons]
    rw [step_bootstrap_of_not_loaded hfails.notLoaded] at hrest ⊢
    exact not_nodup_of_called_again hrest hfailed
      (List.mem_append_right _ (List.mem_of_mem_head? hname)) hfirst hagain
  | later hrest ih => exact ih hadds.2

/-- Registrations of distinct plugins are run at most once exactly if no call that failed after it had run
one is repeated. -/
theorem nodup_called_iff {session : Session} {operations : List Operation}
    (hadds : session.OnlyAdds operations) (hnames : (pluginNames session.listed).Nodup)
    (hcalled : session.called = []) :
    (session.run operations).called.Nodup ↔ ¬session.RepeatsLate operations := by
  refine ⟨fun hnodup hrepeats => not_nodup_of_repeatsLate hadds hrepeats hnodup, fun h => ?_⟩
  -- Until a call runs a registration nothing has been run, which is the hypothesis of the induction; behind
  -- that call either the plugins are loaded or no further call comes.
  induction operations generalizing session with
  | nil =>
    change session.called.Nodup
    rw [hcalled]
    exact List.nodup_nil
  | cons operation rest ih =>
    obtain ⟨hoperation, hrest⟩ := hadds
    have hlater : ¬(session.step operation).1.RepeatsLate rest := fun hlater => h (.later hlater)
    rw [run_cons]
    by_cases hbootstrap : operation = .bootstrap none
    · subst hbootstrap
      cases hloaded : session.hasLoadedPlugins with
      | true =>
        rw [step_bootstrap_of_loaded hloaded] at hrest hlater ⊢
        exact ih hrest hnames hcalled hlater
      | false =>
        rw [step_bootstrap_of_not_loaded hloaded, hcalled, List.nil_append] at hrest hlater ⊢
        have hnodup := nodup_called_loading hnames
        cases hresult : session.loading.result with
        | ok =>
          rw [hresult] at hrest
          rw [called_run_of_loaded hrest rfl]
          exact hnodup
        | error error =>
          rw [hresult] at hrest hlater
          by_cases hnone : session.loading.called = []
          · exact ih hrest hnames hnone hlater
          -- The call has failed late, so that it is not repeated.
          · have hfails : session.FailsLate := by
              refine ⟨hloaded, fun hok => ?_, hnone⟩
              rw [hresult] at hok
              cases hok
            rw [called_run_of_not_mem hrest fun hagain => h (.here hfails hagain)]
            exact hnodup
    · obtain ⟨added, hplugins, -⟩ := plugins_of_adds hoperation hbootstrap
      have hlisted : (session.step operation).1.listed = session.listed := congrArg (·.2.1) hplugins
      refine ih hrest (hlisted.symm ▸ hnames) ?_ hlater
      exact (congrArg (·.2.2.2) hplugins).trans hcalled

/-! ## A missing module -/

/-- A session whose plugins can be loaded but for one module, which is missing: with it all can be imported,
and their wrappers have different names that are not registered. -/
structure LacksOnly (session : Session) (before : List String) (missing : Plugin) (behind : List String) :
    Prop where
  listed : pluginNames session.listed = before ++ missing.name :: behind
  distinct : (pluginNames session.listed).Nodup
  notLoaded : session.hasLoadedPlugins = false
  absent : ∃ error, importPlugin session.available missing.name = .error error
  imports : ∀ name ∈ pluginNames session.listed,
    ∃ plugin, importPlugin (missing :: session.available) name = .ok plugin
  names : (((importable (missing :: session.available) (pluginNames session.listed)).flatMap
    Plugin.wrappers).map (·.1)).Nodup
  unregistered : ∀ wrapper ∈ (importable (missing :: session.available)
    (pluginNames session.listed)).flatMap Plugin.wrappers, .text wrapper.1 ∉ session.shared.keys

theorem importable_append {available : List Plugin} {before : List String}
    (h : ∀ name ∈ before, ∃ plugin, importPlugin available name = .ok plugin) (behind : List String) :
    importable available (before ++ behind)
      = importable available before ++ importable available behind := by
  induction before with
  | nil => rfl
  | cons name before ih =>
    obtain ⟨⟨plugin, hplugin⟩, hbefore⟩ := List.forall_mem_cons.1 h
    rw [List.cons_append, importable_of_ok hplugin, importable_of_ok hplugin, ih hbefore, List.cons_append]

/-- A module with another name does not change which plugins can be imported. -/
theorem importable_cons_of_ne {available : List Plugin} {plugin : Plugin} {names : List String}
    (h : ∀ name ∈ names, plugin.name ≠ name) :
    importable (plugin :: available) names = importable available names := by
  induction names with
  | nil => rfl
  | cons name rest ih =>
    obtain ⟨hname, hrest⟩ := List.forall_mem_cons.1 h
    cases himport : importPlugin available name with
    | ok found =>
      rw [importable_of_ok himport, importable_of_ok ((importPlugin_cons_of_ne hname).2 himport), ih hrest]
    | error error =>
      rw [importable_of_error himport]
      cases himport' : importPlugin (plugin :: available) name with
      | ok found =>
        rw [importPlugin_cons_of_ne hname, himport] at himport'
        cases himport'
      | error error => rw [importable_of_error himport']

namespace LacksOnly

variable {session : Session} {before behind : List String} {missing : Plugin}

/-- The plugins in front of the missing module are other ones. -/
theorem ne_missing (h : session.LacksOnly before missing behind) :
    ∀ name ∈ before, missing.name ≠ name := by
  have hdistinct := h.distinct
  rw [h.listed, List.nodup_append] at hdistinct
  exact fun name hname => (hdistinct.2.2 name hname _ List.mem_cons_self).symm

/-- The plugins in front of the missing module can be imported without it. -/
theorem imports_before (h : session.LacksOnly before missing behind) :
    ∀ name ∈ before, ∃ plugin, importPlugin session.available name = .ok plugin := by
  intro name hname
  obtain ⟨plugin, hplugin⟩ := h.imports name (by rw [h.listed]; exact List.mem_append_left _ hname)
  exact ⟨plugin, (importPlugin_cons_of_ne (h.ne_missing name hname)).1 hplugin⟩

/-- The wrappers of the plugins in front of the missing module come first. -/
theorem wrappers_eq (h : session.LacksOnly before missing behind) :
    ∃ others, (importable (missing :: session.available) (pluginNames session.listed)).flatMap
        Plugin.wrappers
      = (importable session.available before).flatMap Plugin.wrappers ++ others := by
  have himports : ∀ name ∈ before, ∃ plugin,
      importPlugin (missing :: session.available) name = .ok plugin :=
    fun name hname => h.imports name (by rw [h.listed]; exact List.mem_append_left _ hname)
  rw [h.listed, importable_append himports, importable_cons_of_ne h.ne_missing, List.flatMap_append]
  exact ⟨_, rfl⟩

/-- The plugins in front of the missing module are loaded. -/
theorem registers_before (h : session.LacksOnly before missing behind) :
    (registerAll session.shared ((importable session.available before).flatMap Plugin.wrappers)).2
      = .ok () := by
  obtain ⟨others, hothers⟩ := h.wrappers_eq
  have hnames := h.names
  have hunregistered := h.unregistered
  rw [hothers] at hunregistered
  rw [hothers, List.map_append] at hnames
  exact registerAll_ok_iff.2 ⟨(List.nodup_append.1 hnames).1,
    fun wrapper hwrapper => hunregistered wrapper (List.mem_append_left _ hwrapper)⟩

theorem loads_before (h : session.LacksOnly before missing behind) :
    (loadPlugins session.available session.shared before).result = .ok () :=
  result_loadPlugins_iff.2 ⟨h.imports_before, h.registers_before⟩

/-- The call fails because the module is missing. -/
theorem result_loading (h : session.LacksOnly before missing behind) {error : PluginError}
    (herror : importPlugin session.available missing.name = .error error) :
    session.loading.result = .error error := by
  rw [loading, h.listed, result_loadPlugins_append h.loads_before, loadPlugins, herror]

/-- What the call has registered. -/
theorem keys_loading (h : session.LacksOnly before missing behind) :
    session.loading.registry.keys = session.shared.keys
      ++ ((importable session.available before).flatMap Plugin.wrappers).map fun wrapper =>
        .text wrapper.1 := by
  obtain ⟨error, herror⟩ := h.absent
  rw [loading, h.listed, registry_loadPlugins, importable_append h.imports_before,
    importable_of_error herror, List.append_nil, keys_registerAll h.registers_before]

/-- After the missing module was added a further call succeeds exactly if the plugins in front of it
register no wrappers. -/
theorem result_retry_iff (h : session.LacksOnly before missing behind) :
    (session.run [.bootstrap none, .define missing]).bootstrap.2 = .ok ()
      ↔ ∀ plugin ∈ importable session.available before, plugin.wrappers = [] := by
  obtain ⟨error, herror⟩ := h.absent
  obtain ⟨others, hothers⟩ := h.wrappers_eq
  have hretry : session.run [.bootstrap none, .define missing] = { session with
      available := missing :: session.available
      shared := session.loading.registry
      called := session.called ++ session.loading.called
      hasLoadedPlugins := false } := by
    rw [run_cons, step_bootstrap_of_not_loaded h.notLoaded, h.result_loading herror]
    rfl
  rw [hretry, bootstrap_of_not_loaded rfl]
  change (loadPlugins (missing :: session.available) session.loading.registry _).result = _ ↔ _
  rw [result_loadPlugins_iff, registerAll_ok_iff, ← List.flatMap_eq_nil_iff]
  constructor
  · rintro ⟨-, -, hnew⟩
    -- The first wrapper of a plugin in front of the missing module would be registered already.
    rw [List.eq_nil_iff_forall_not_mem]
    intro wrapper hwrapper
    refine hnew wrapper ?_ ?_
    · rw [hothers]
      exact List.mem_append_left _ hwrapper
    · rw [h.keys_loading]
      exact List.mem_append_right _ (List.mem_map_of_mem hwrapper)
  · intro hnone
    refine ⟨h.imports, h.names, ?_⟩
    rw [h.keys_loading, hnone, List.map_nil, List.append_nil]
    exact h.unregistered

end LacksOnly

end Session

/-- Registrations of distinct plugins are run at most once exactly if no call is repeated that failed after
it had run one. A call that fails only because a module is missing names this module, and the call after the
module was added succeeds exactly if the plugins listed in front of it register no wrappers: what they have
registered is refused when they are loaded again. -/
theorem plugins_called_once_iff (session : Session) (operations : List Operation)
    (hadds : session.OnlyAdds operations) (hnames : (pluginNames session.listed).Nodup)
    (hcalled : session.called = []) :
    ((session.run operations).called.Nodup ↔ ¬session.RepeatsLate operations)
    ∧ ∀ before missing behind, (session.run operations).LacksOnly before missing behind →
      (∃ error, importPlugin (session.run operations).available missing.name = .error error
        ∧ (session.run operations).bootstrap.2 = .error error)
      ∧ (((session.run operations).run [.bootstrap none, .define missing]).bootstrap.2 = .ok ()
        ↔ ∀ plugin ∈ importable (session.run operations).available before, plugin.wrappers = []) := by
  refine ⟨Session.nodup_called_iff hadds hnames hcalled, fun before missing behind h => ⟨?_, ?_⟩⟩
  · obtain ⟨error, herror⟩ := h.absent
    refine ⟨error, herror, ?_⟩
    rw [Session.bootstrap_of_not_loaded h.notLoaded]
    exact h.result_loading herror
  · exact h.result_retry_iff

/-! ## An instance -/

/-- A module that registers one wrapper. -/
def registering (name wrapper : String) : Plugin := ⟨name, some [(wrapper, {})]⟩

/-- A session in which the second of two listed modules is missing. -/
def secondMissing : Session :=
  { available := [registering "plug_a" "A"], listed := "plug_a, plug_b" }

/-- A call, the second module, and another call. -/
def retried : List Operation :=
  [.bootstrap none, .define (registering "plug_b" "B"), .bootstrap none]

/-- The modules of the session, with and without the second one, and what its calls do. -/
theorem secondMissing_computed :
    pluginNames secondMissing.listed = ["plug_a", "plug_b"]
    ∧ importPlugin secondMissing.available "plug_b" = .error (.missing "plug_b")
    ∧ importPlugin (registering "plug_b" "B" :: secondMissing.available) "plug_a"
      = .ok (registering "plug_a" "A")
    ∧ importPlugin (registering "plug_b" "B" :: secondMissing.available) "plug_b"
      = .ok (registering "plug_b" "B")
    ∧ importable secondMissing.available ["plug_a"] = [registering "plug_a" "A"]
    ∧ importable (registering "plug_b" "B" :: secondMissing.available) ["plug_a", "plug_b"]
      = [registering "plug_a" "A", registering "plug_b" "B"]
    ∧ (secondMissing.run retried).called = ["plug_a", "plug_a"]
    ∧ (secondMissing.run [.bootstrap none, .define (registering "plug_b" "B")]).bootstrap.2
      = .error (.refused (.alreadyRegistered "A")) := by
  decide +kernel

theorem lacksOnly_secondMissing : secondMissing.LacksOnly ["plug_a"] (registering "plug_b" "B") [] := by
  obtain ⟨hlisted, hmissing, hfirst, hsecond, -, himportable, -⟩ := secondMissing_computed
  constructor
  case listed => exact hlisted
  case distinct =>
    rw [hlisted]
    decide
  case notLoaded => rfl
  case absent => exact ⟨.missing "plug_b", hmissing⟩
  case imports =>
    rw [hlisted, List.forall_mem_cons, List.forall_mem_singleton]
    exact ⟨⟨_, hfirst⟩, ⟨_, hsecond⟩⟩
  case names =>
    rw [hlisted, himportable]
    decide
  case unregistered => exact fun wrapper hwrapper => List.not_mem_nil

theorem onlyAdds_retried : secondMissing.OnlyAdds retried := by
  have hnew : ∀ other ∈ [registering "plug_a" "A"], other.name ≠ "plug_b" := by decide
  exact ⟨rfl, hnew, rfl, trivial⟩

/-- The first module's registration is run twice although the names of the modules and of their wrappers are
distinct, and the call after the second module was added fails. -/
theorem registration_runs_again :
    secondMissing.LacksOnly ["plug_a"] (registering "plug_b" "B") []
    ∧ secondMissing.OnlyAdds retried ∧ ¬(secondMissing.run retried).called.Nodup
    ∧ (secondMissing.run [.bootstrap none, .define (registering "plug_b" "B")]).bootstrap.2
      = .error (.refused (.alreadyRegistered "A")) := by
  obtain ⟨-, -, -, -, -, -, hcalled, hrefused⟩ := secondMissing_computed
  refine ⟨lacksOnly_secondMissing, onlyAdds_retried, ?_, hrefused⟩
  rw [hcalled]
  decide

/-- The call that failed late is repeated. After the first call, which names the missing module, every
further call is refused. -/
theorem plugins_called_once_secondMissing :
    secondMissing.OnlyAdds retried ∧ (pluginNames secondMissing.listed).Nodup
    ∧ secondMissing.called = [] ∧ secondMissing.RepeatsLate retried
    ∧ (secondMissing.run []).LacksOnly ["plug_a"] (registering "plug_b" "B") []
    ∧ (secondMissing.run []).bootstrap.2 ≠ .ok ()
    ∧ ((secondMissing.run []).run [.bootstrap none, .define (registering "plug_b" "B")]).bootstrap.2
      ≠ .ok () := by
  have hnames := lacksOnly_secondMissing.distinct
  obtain ⟨-, -, -, -, himportable, -, hrun, -⟩ := secondMissing_computed
  obtain ⟨hcalled, -⟩ := plugins_called_once_iff secondMissing retried onlyAdds_retried hnames rfl
  rw [hrun] at hcalled
  obtain ⟨-, hmissing⟩ := plugins_called_once_iff secondMissing [] trivial hnames rfl
  obtain ⟨⟨error, -, herror⟩, hretry⟩ := hmissing _ _ _ lacksOnly_secondMissing
  refine ⟨onlyAdds_retried, hnames, rfl, ?_, lacksOnly_secondMissing, fun hok => ?_, fun hok => ?_⟩
  · by_contra hnot
    exact absurd (hcalled.2 hnot) (by decide)
  · rw [herror] at hok
    cases hok
  · have hmem : registering "plug_a" "A" ∈ importable secondMissing.available ["plug_a"] := by
      rw [himportable]
      exact List.mem_singleton_self _
    have hwrappers := hretry.1 hok (registering "plug_a" "A") hmem
    cases hwrappers

end PropertyWrapper
