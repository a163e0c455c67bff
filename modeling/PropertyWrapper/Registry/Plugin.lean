import PropertyWrapper.Registry.Basic
import PropertyWrapper.Text.Blank

/-!
# Plugins

Plugins are importable modules that register wrappers. They are listed by name, separated by commas,
and are loaded in order until one fails; what was registered before stays registered.
-/

namespace PropertyWrapper

open Text

/-- An importable module. A module without a registration adds no wrappers. -/
structure Plugin where
  name : String
  registration : Option (List (String × WrapperConfig))
deriving DecidableEq, Repr

/-! ## Errors -/

/-- Why a plugin cannot be loaded. -/
inductive PluginError where
  /-- The name is relative to an unknown package. -/
  | relative (name : String)
  /-- No module has the name. -/
  | missing (name : String)
  /-- The module that should contain another one is no package. -/
  | notPackage (name parent : String)
  /-- A wrapper of the plugin is refused. -/
  | refused (error : RegistryError)
deriving DecidableEq, Repr

/-- The explanation of a failure. -/
def PluginError.message : PluginError → String
  | .relative name =>
    "the 'package' argument is required to perform a relative import for " ++ quoted name
  | .missing name => "No module named " ++ quoted name
  | .notPackage name parent =>
    "No module named " ++ quoted name ++ "; " ++ quoted parent ++ " is not a package"
  | .refused error => error.message

/-! ## Lookup -/

/-- The names of the packages around a dotted name, the innermost first. -/
def enclosingPackages (name : String) : List String :=
  let chars := name.toList
  let dots := (List.range chars.length).filter fun index => chars[index]? = some '.'
  (dots.map fun index => String.ofList (chars.take index)).reverse

/-- Why an absent module cannot be imported: the innermost package around it that is present is only
a module, or the outermost one is absent. -/
def importError (isPresent : String → Bool) (name : String) : List String → PluginError
  | [] => .missing name
  | parent :: rest =>
    if isPresent parent then .notPackage name parent else importError isPresent parent rest

/-- The module with a name. -/
def importPlugin (available : List Plugin) (name : String) : Except PluginError Plugin :=
  if name.toList.head? = some '.' then .error (.relative name)
  else
    match available.find? (·.name = name) with
    | some plugin => .ok plugin
    | none =>
      let isPresent name := available.any (·.name = name)
      .error (importError isPresent name (enclosingPackages name))

/-! ## Loading -/

/-- The registry after wrappers were registered in order until one was refused. -/
def registerAll (registry : Registry) :
    List (String × WrapperConfig) → Registry × Except RegistryError Unit
  | [] => (registry, .ok ())
  | (name, config) :: rest =>
    match registry.register name config with
    | .ok registry => registerAll registry rest
    | .error error => (registry, .error error)

/-- The names in a list of plugins; empty ones are skipped. -/
def pluginNames (listed : String) : List String :=
  ((splitAt ',' listed.toList).map fun part => trim (String.ofList part)).filter (· ≠ "")

/-- What loading plugins leaves behind. -/
structure Loading where
  registry : Registry
  /-- The modules whose registrations were run, in order, also the one that was refused. -/
  called : List String := []
  result : Except PluginError Unit := .ok ()

/-- A loading with a registration that was run before it. -/
def Loading.after (name : String) (loading : Loading) : Loading :=
  { loading with called := name :: loading.called }

/-- Loads plugins in order until one fails. -/
def loadPlugins (available : List Plugin) (registry : Registry) : List String → Loading
  | [] => { registry }
  | name :: rest =>
    match importPlugin available name with
    | .error error => { registry, result := .error error }
    | .ok plugin =>
      match plugin.registration with
      | none => loadPlugins available registry rest
      | some wrappers =>
        match registerAll registry wrappers with
        | (registry, .ok ()) => (loadPlugins available registry rest).after name
        | (registry, .error error) =>
          { registry, called := [name], result := .error (.refused error) }

/-- A loading runs registrations in the order of the list, each at most as often as it is listed. -/
theorem called_sublist (available : List Plugin) (registry : Registry) (names : List String) :
    (loadPlugins available registry names).called.Sublist names := by
  fun_induction loadPlugins available registry names with
  | case1 => exact .slnil
  | case2 => exact List.nil_sublist _
  | case3 registry name rest plugin himport hnone ih => exact ih.cons name
  | case4 registry name rest plugin himport wrappers hsome next hregister ih => exact ih.cons_cons name
  | case5 => exact List.singleton_sublist.2 List.mem_cons_self

end PropertyWrapper
