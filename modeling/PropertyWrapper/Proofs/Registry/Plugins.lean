import PropertyWrapper.Proofs.Registry.Writes
import PropertyWrapper.Registry.Session

/-!
# Loading of plugins

What a loading of plugins registers, which registrations it runs, and when it succeeds.

* `registerAll_fst`, `registerAll_ok_iff` : registrations up to the first that is refused;
* `importable` : the plugins in front of the first that cannot be imported;
* `registry_loadPlugins`, `result_loadPlugins_iff` : a loading is the registration of all their wrappers;
* `head?_called` : the registration that a loading runs first;
* `Session.plugins_step` : operations that do not concern plugins.
-/

namespace PropertyWrapper

/-- The wrappers that a plugin registers. -/
def Plugin.wrappers (plugin : Plugin) : List (String × WrapperConfig) := plugin.registration.getD []

/-! ## Registrations -/

/-- The writes of registrations up to the first that is refused. -/
def accepted (known : List Key) : List (String × WrapperConfig) → List Write
  | [] => []
  | (name, config) :: rest =>
    if .text name ∈ known then []
    else (.text name, config) :: accepted (known ++ [.text name]) rest

theorem Registry.contains_iff {registry : Registry} {key : Key} :
    registry.contains key = true ↔ key ∈ registry.keys :=
  List.contains_iff_mem

theorem Registry.register_of_mem {registry : Registry} {name : String} (config : WrapperConfig)
    (h : .text name ∈ registry.keys) :
    registry.register name config = .error (.alreadyRegistered name) := by
  rw [Registry.register, if_pos (Registry.contains_iff.2 h)]

theorem Registry.register_of_not_mem {registry : Registry} {name : String} (config : WrapperConfig)
    (h : .text name ∉ registry.keys) :
    registry.register name config = .ok (registry.write (.text name) config) := by
  rw [Registry.register, if_neg fun hcontains => h (Registry.contains_iff.1 hcontains)]

theorem Registry.keys_write_of_not_mem {registry : Registry} {key : Key} (config : WrapperConfig)
    (h : key ∉ registry.keys) : (registry.write key config).keys = registry.keys ++ [key] := by
  rw [keys_write, if_neg h]

section Registrations

variable {registry : Registry}

theorem registerAll_of_mem {name : String} {config : WrapperConfig} (rest : List (String × WrapperConfig))
    (h : .text name ∈ registry.keys) :
    registerAll registry ((name, config) :: rest) = (registry, .error (.alreadyRegistered name)) := by
  rw [registerAll, Registry.register_of_mem config h]

theorem registerAll_of_not_mem {name : String} {config : WrapperConfig}
    (rest : List (String × WrapperConfig)) (h : .text name ∉ registry.keys) :
    registerAll registry ((name, config) :: rest)
      = registerAll (registry.write (.text name) config) rest := by
  rw [registerAll, Registry.register_of_not_mem config h]

/-- Registrations write what is accepted. -/
theorem registerAll_fst (registry : Registry) (wrappers : List (String × WrapperConfig)) :
    (registerAll registry wrappers).1 = registry.overlay (accepted registry.keys wrappers) := by
  induction wrappers generalizing registry with
  | nil => rfl
  | cons wrapper rest ih =>
    obtain ⟨name, config⟩ := wrapper
    by_cases hmem : .text name ∈ registry.keys
    · rw [registerAll_of_mem rest hmem, accepted, if_pos hmem]
      rfl
    · rw [registerAll_of_not_mem rest hmem, ih, accepted, if_neg hmem,
        Registry.keys_write_of_not_mem config hmem]
      rfl

/-- Registrations succeed if their names are new and different. -/
theorem registerAll_ok_iff {wrappers : List (String × WrapperConfig)} :
    (registerAll registry wrappers).2 = .ok ()
      ↔ (wrappers.map (·.1)).Nodup ∧ ∀ wrapper ∈ wrappers, .text wrapper.1 ∉ registry.keys := by
  induction wrappers generalizing registry with
  | nil => simp [registerAll]
  | cons wrapper rest ih =>
    obtain ⟨name, config⟩ := wrapper
    by_cases hmem : .text name ∈ registry.keys
    · rw [registerAll_of_mem rest hmem]
      constructor
      · intro h
        cases h
      · rintro ⟨-, h⟩
        exact absurd hmem (h _ List.mem_cons_self)
    · rw [registerAll_of_not_mem rest hmem, ih, Registry.keys_write_of_not_mem config hmem, List.map_cons,
        List.nodup_cons, List.forall_mem_cons]
      simp only [List.mem_append, List.mem_singleton, not_or, List.mem_map, not_exists, not_and,
        Document.Scalar.text.injEq]
      constructor
      · rintro ⟨hdistinct, hnew⟩
        exact ⟨⟨fun wrapper hwrapper => (hnew wrapper hwrapper).2, hdistinct⟩, hmem,
          fun wrapper hwrapper => (hnew wrapper hwrapper).1⟩
      · rintro ⟨⟨hname, hdistinct⟩, -, hnew⟩
        exact ⟨hdistinct, fun wrapper hwrapper => ⟨hnew wrapper hwrapper, hname wrapper hwrapper⟩⟩

/-- Successful registrations add their names. -/
theorem keys_registerAll {wrappers : List (String × WrapperConfig)}
    (h : (registerAll registry wrappers).2 = .ok ()) :
    (registerAll registry wrappers).1.keys
      = registry.keys ++ wrappers.map fun wrapper => .text wrapper.1 := by
  induction wrappers generalizing registry with
  | nil => simp [registerAll]
  | cons wrapper rest ih =>
    obtain ⟨name, config⟩ := wrapper
    have hmem : .text name ∉ registry.keys := (registerAll_ok_iff.1 h).2 _ List.mem_cons_self
    rw [registerAll_of_not_mem rest hmem] at h ⊢
    rw [ih h, Registry.keys_write_of_not_mem config hmem, List.append_assoc]
    rfl

theorem registerAll_append (wrappers others : List (String × WrapperConfig)) :
    registerAll registry (wrappers ++ others)
      = match registerAll registry wrappers with
        | (registry, .ok ()) => registerAll registry others
        | (registry, .error error) => (registry, .error error) := by
  induction wrappers generalizing registry with
  | nil => rfl
  | cons wrapper rest ih =>
    obtain ⟨name, config⟩ := wrapper
    rw [List.cons_append]
    by_cases hmem : .text name ∈ registry.keys
    · rw [registerAll_of_mem _ hmem, registerAll_of_mem _ hmem]
    · rw [registerAll_of_not_mem _ hmem, registerAll_of_not_mem _ hmem, ih]

end Registrations

/-! ## Imports -/

/-- The plugins in front of the first that cannot be imported. -/
def importable (available : List Plugin) : List String → List Plugin
  | [] => []
  | name :: rest =>
    match importPlugin available name with
    | .ok plugin => plugin :: importable available rest
    | .error _ => []

section Imports

variable {available : List Plugin} {plugin found : Plugin} {name : String}

theorem importable_of_ok (h : importPlugin available name = .ok plugin) (rest : List String) :
    importable available (name :: rest) = plugin :: importable available rest := by
  rw [importable, h]

theorem importable_of_error {error : PluginError} (h : importPlugin available name = .error error)
    (rest : List String) : importable available (name :: rest) = [] := by
  rw [importable, h]

theorem importPlugin_eq_ok :
    importPlugin available name = .ok found
      ↔ name.toList.head? ≠ some '.' ∧ available.find? (·.name = name) = some found := by
  rw [importPlugin]
  by_cases hdot : name.toList.head? = some '.'
  · simp [hdot]
  · rw [if_neg hdot]
    cases hfound : available.find? (·.name = name) with
    | none => simp
    | some found => simp [hdot]

theorem name_of_importPlugin (h : importPlugin available name = .ok found) : found.name = name := by
  simpa using List.find?_some (importPlugin_eq_ok.1 h).2

/-- A module with another name does not change an import. -/
theorem importPlugin_cons_of_ne (h : plugin.name ≠ name) :
    importPlugin (plugin :: available) name = .ok found ↔ importPlugin available name = .ok found := by
  rw [importPlugin_eq_ok, importPlugin_eq_ok, List.find?_cons_of_neg (by simpa using h)]

/-- A module with a new name does not change the imports that succeed. -/
theorem importPlugin_cons (hnew : ∀ other ∈ available, other.name ≠ plugin.name)
    (h : importPlugin available name = .ok found) : importPlugin (plugin :: available) name = .ok found := by
  refine (importPlugin_cons_of_ne ?_).2 h
  rw [← name_of_importPlugin h]
  exact (hnew found (List.mem_of_find?_eq_some (importPlugin_eq_ok.1 h).2)).symm

end Imports

/-! ## Loading -/

section Loading

variable {available : List Plugin} {registry : Registry}

@[simp] theorem registry_after (name : String) (loading : Loading) :
    (loading.after name).registry = loading.registry := rfl

@[simp] theorem called_after (name : String) (loading : Loading) :
    (loading.after name).called = name :: loading.called := rfl

@[simp] theorem result_after (name : String) (loading : Loading) :
    (loading.after name).result = loading.result := rfl

/-- A loading registers the wrappers of the importable plugins. -/
theorem registry_loadPlugins (available : List Plugin) (registry : Registry) (names : List String) :
    (loadPlugins available registry names).registry
      = (registerAll registry ((importable available names).flatMap Plugin.wrappers)).1 := by
  -- The cases: no name, a failed import, a module that registers nothing, one whose wrappers are all
  -- accepted, and one with a refused wrapper. A registration that stops also stops what is behind it.
  fun_induction loadPlugins available registry names with
  | case1 => rfl
  | case2 registry name rest error himport => rw [importable_of_error himport]; rfl
  | case3 registry name rest plugin himport hnone ih =>
    rw [importable_of_ok himport, List.flatMap_cons, Plugin.wrappers, hnone]
    exact ih
  | case4 registry name rest plugin himport wrappers hsome next hregister ih =>
    rw [importable_of_ok himport, List.flatMap_cons, Plugin.wrappers, hsome, Option.getD_some,
      registerAll_append, hregister]
    exact ih
  | case5 registry name rest plugin himport wrappers hsome next error hregister =>
    rw [importable_of_ok himport, List.flatMap_cons, Plugin.wrappers, hsome, Option.getD_some,
      registerAll_append, hregister]

/-- A loading succeeds if all plugins can be imported and no wrapper is refused. -/
theorem result_loadPlugins_iff {names : List String} :
    (loadPlugins available registry names).result = .ok ()
      ↔ (∀ name ∈ names, ∃ plugin, importPlugin available name = .ok plugin)
        ∧ (registerAll registry ((importable available names).flatMap Plugin.wrappers)).2 = .ok () := by
  fun_induction loadPlugins available registry names with
  | case1 => simp [importable, registerAll]
  | case2 registry name rest error himport => simp [himport]
  | case3 registry name rest plugin himport hnone ih =>
    rw [ih, importable_of_ok himport, List.flatMap_cons, Plugin.wrappers, hnone]
    simp [himport]
  | case4 registry name rest plugin himport wrappers hsome next hregister ih =>
    rw [result_after, ih, importable_of_ok himport, List.flatMap_cons, Plugin.wrappers, hsome,
      Option.getD_some, registerAll_append, hregister]
    simp [himport]
  | case5 registry name rest plugin himport wrappers hsome next error hregister =>
    rw [importable_of_ok himport, List.flatMap_cons, Plugin.wrappers, hsome, Option.getD_some,
      registerAll_append, hregister]
    simp

/-- A loading goes on behind plugins that were loaded. -/
theorem result_loadPlugins_append {before : List String}
    (h : (loadPlugins available registry before).result = .ok ()) (behind : List String) :
    (loadPlugins available registry (before ++ behind)).result
      = (loadPlugins available (loadPlugins available registry before).registry behind).result := by
  fun_induction loadPlugins available registry before with
  | case1 => rfl
  | case2 registry name rest error himport => cases h
  | case3 registry name rest plugin himport hnone ih =>
    rw [List.cons_append, loadPlugins, himport]
    simp only [hnone]
    exact ih h
  | case4 registry name rest plugin himport wrappers hsome next hregister ih =>
    rw [List.cons_append, loadPlugins, himport]
    simp only [hsome, hregister]
    exact ih h
  | case5 registry name rest plugin himport wrappers hsome next error hregister => cases h

/-- The first plugin with a registration, if all in front of it can be imported. -/
def firstCallable (available : List Plugin) : List String → Option String
  | [] => none
  | name :: rest =>
    match importPlugin available name with
    | .error _ => none
    | .ok plugin => if plugin.registration.isSome then some name else firstCallable available rest

/-- Which registration is run first does not depend on the registry. -/
theorem head?_called (available : List Plugin) (registry : Registry) (names : List String) :
    (loadPlugins available registry names).called.head? = firstCallable available names := by
  fun_induction loadPlugins available registry names with
  | case1 => rfl
  | case2 registry name rest error himport => simp [firstCallable, himport]
  | case3 registry name rest plugin himport hnone ih => simp [firstCallable, himport, hnone, ih]
  | case4 registry name rest plugin himport wrappers hsome => simp [firstCallable, himport, hsome]
  | case5 registry name rest plugin himport wrappers hsome => simp [firstCallable, himport, hsome]

/-- New modules do not change which registration is run first. -/
theorem firstCallable_cons {plugin : Plugin} {names : List String} {name : String}
    (hnew : ∀ other ∈ available, other.name ≠ plugin.name)
    (h : firstCallable available names = some name) :
    firstCallable (plugin :: available) names = some name := by
  induction names with
  | nil => cases h
  | cons first rest ih =>
    rw [firstCallable] at h ⊢
    cases himport : importPlugin available first with
    | error error =>
      rw [himport] at h
      cases h
    | ok found =>
      rw [himport] at h
      rw [importPlugin_cons hnew himport]
      dsimp only at h ⊢
      by_cases hsome : found.registration.isSome = true
      · rwa [if_pos hsome] at h ⊢
      · rw [if_neg hsome] at h ⊢
        exact ih h

end Loading

/-! ## Sessions -/

namespace Session

/-- What a session holds of plugins. -/
def plugins (session : Session) : List Plugin × String × Bool × List String :=
  (session.available, session.listed, session.hasLoadedPlugins, session.called)

theorem plugins_setRegistry (session : Session) (place : Place) (registry : Registry) :
    (session.setRegistry place registry).plugins = session.plugins := by
  cases place <;> rfl

/-- Operations on registries leave plugins alone. -/
theorem plugins_step {session : Session} {operation : Operation}
    (hdefine : ∀ plugin, operation ≠ .define plugin)
    (hbootstrap : ∀ listed, operation ≠ .bootstrap listed) :
    (session.step operation).1.plugins = session.plugins := by
  cases operation with
  | register place name config =>
    rw [step]
    split
    · exact plugins_setRegistry ..
    · rfl
  | get place name =>
    rw [step]
    split <;> rfl
  | define plugin => exact absurd rfl (hdefine plugin)
  | bootstrap listed => exact absurd rfl (hbootstrap listed)
  | resolve | contains | size | entries | names | expand => rfl
  | create | write | copy | clear | loadBuiltins | build => exact plugins_setRegistry ..

/-- Loaded plugins are not loaded again. -/
theorem bootstrap_of_loaded {session : Session} (h : session.hasLoadedPlugins = true) :
    session.bootstrap = (session, .ok ()) := by
  rw [bootstrap, if_pos h]

/-- A call that loads the plugins. -/
theorem bootstrap_of_not_loaded {session : Session} (h : session.hasLoadedPlugins = false) :
    session.bootstrap = ({ session with
        shared := session.loading.registry
        called := session.called ++ session.loading.called
        hasLoadedPlugins := session.loading.result.isOk }, session.loading.result) := by
  rw [bootstrap, h, if_neg Bool.false_ne_true]
  dsimp only
  split
  · rename_i hresult
    rw [hresult]
    rfl
  · rename_i error hresult
    rw [hresult]
    congr 2

theorem step_bootstrap (session : Session) (listed : Option String) :
    (session.step (.bootstrap listed)).1 = (session.listing listed).bootstrap.1 := by
  rw [step]
  split <;> simp_all

end Session

end PropertyWrapper
