import PropertyWrapper.Expansion.Module
import PropertyWrapper.Registry.Plugin

/-!
# Sessions

A session holds any number of registries by name beside the one that all runs share, the modules that
can be imported, and whether plugins have been loaded. Its operations are values, so that a session is
a fold over a list of them.
-/

namespace PropertyWrapper

/-! ## State -/

/-- The state of a session. -/
structure Session where
  shared : Registry := .empty
  /-- The other registries, in the order in which they were made. -/
  named : List (String × Registry) := []
  available : List Plugin := []
  /-- The plugins to load, as a list separated by commas. -/
  listed : String := ""
  hasLoadedPlugins : Bool := false
  /-- The plugins whose registrations were run, in order. -/
  called : List String := []

/-- Which registry an operation is about. -/
inductive Place where
  | shared
  | named (name : String)
deriving DecidableEq, Repr

namespace Session

/-- The registry at a place; a name that was never used stands for an empty registry. -/
def registry (session : Session) : Place → Registry
  | .shared => session.shared
  | .named name => (session.named.lookup name).getD .empty

/-- Named registries after one of them was set. -/
def setNamed (name : String) (registry : Registry) :
    List (String × Registry) → List (String × Registry)
  | [] => [(name, registry)]
  | entry :: rest =>
    if entry.1 = name then (name, registry) :: rest else entry :: setNamed name registry rest

/-- The session after the registry at a place was set. -/
def setRegistry (session : Session) (place : Place) (registry : Registry) : Session :=
  match place with
  | .shared => { session with shared := registry }
  | .named name => { session with named := setNamed name registry session.named }

/-- Loads the plugins that are listed in a session. -/
def loading (session : Session) : Loading :=
  loadPlugins session.available session.shared (pluginNames session.listed)

/-- The session after the listed plugins were loaded. Once this has succeeded it is not done again; what
a failed attempt has registered stays. -/
def bootstrap (session : Session) : Session × Except PluginError Unit :=
  if session.hasLoadedPlugins then (session, .ok ())
  else
    let loading := session.loading
    let session :=
      { session with shared := loading.registry, called := session.called ++ loading.called }
    match loading.result with
    | .ok () => ({ session with hasLoadedPlugins := true }, .ok ())
    | .error error => (session, .error error)

end Session

/-! ## Operations -/

/-- The operations of a session. -/
inductive Operation where
  | create (place : Place) (configs : List (Key × WrapperConfig))
  | register (place : Place) (name : String) (config : WrapperConfig)
  | write (place : Place) (name : String) (config : WrapperConfig)
  | get (place : Place) (name : String)
  | resolve (place : Place) (name : Option String)
  | contains (place : Place) (name : String)
  | size (place : Place)
  | entries (place : Place)
  | names (place : Place)
  | copy (source target : Place)
  | clear (place : Place)
  | loadBuiltins (place : Place)
  /-- Builds a registry from the shared one, with the built-in wrappers and a file if they are wanted. -/
  | build (target : Place) (includeBuiltins : Bool) (file : Option RegistryFile := none)
  /-- Expands a source with a registry, or with the one built from the shared one. -/
  | expand (place : Option Place) (source : String)
  | define (plugin : Plugin)
  | bootstrap (listed : Option String)

/-- What an operation answers. -/
inductive Reply where
  | done
  | config (config : Option WrapperConfig)
  | flag (value : Bool)
  | count (value : Nat)
  | entries (entries : List (Key × WrapperConfig))
  | names (keys : List Key)
  | expansion (outcome : Outcome) (events : List Event)

/-- Why an operation fails. -/
inductive SessionError where
  | registry (error : RegistryError)
  | plugin (error : PluginError)
  | expansion (error : ExpansionError)

namespace Session

/-- The expansion of a source with a registry. -/
def expand (registry : Registry) (source : String) : Except SessionError Reply :=
  let trace := expandSource registry "<string>" source
  match trace.result with
  | .ok outcome => .ok (.expansion outcome trace.events)
  | .error error => .error (.expansion error)

/-- The session after the list of plugins was set, if there is a new one. -/
def listing (session : Session) (listed : Option String) : Session :=
  { session with listed := listed.getD session.listed }

/-- The session after an operation, and the answer or failure. -/
def step (session : Session) : Operation → Session × Except SessionError Reply
  | .create place configs =>
    (session.setRegistry place (Registry.empty.overlay configs), .ok .done)
  | .register place name config =>
    match (session.registry place).register name config with
    | .ok registry => (session.setRegistry place registry, .ok (.config (some config)))
    | .error error => (session, .error (.registry error))
  | .write place name config =>
    (session.setRegistry place ((session.registry place).write (.text name) config),
      .ok (.config (some config)))
  | .get place name =>
    match (session.registry place).get name with
    | .ok config => (session, .ok (.config (some config)))
    | .error error => (session, .error (.registry error))
  | .resolve place name => (session, .ok (.config ((session.registry place).resolve name)))
  | .contains place name => (session, .ok (.flag ((session.registry place).contains (.text name))))
  | .size place => (session, .ok (.count (session.registry place).entries.length))
  | .entries place => (session, .ok (.entries (session.registry place).entries))
  | .names place => (session, .ok (.names (session.registry place).keys))
  | .copy source target =>
    let registry := session.registry source
    (session.setRegistry target registry, .ok (.names registry.keys))
  | .clear place => (session.setRegistry place .empty, .ok .done)
  | .loadBuiltins place =>
    (session.setRegistry place (session.registry place).withBuiltins, .ok .done)
  | .build target includeBuiltins file =>
    let registry := Registry.build session.shared file includeBuiltins
    (session.setRegistry target registry, .ok (.names registry.keys))
  | .expand place source =>
    let registry := place.elim (Registry.build session.shared none true) session.registry
    (session, Session.expand registry source)
  | .define plugin => ({ session with available := plugin :: session.available }, .ok .done)
  | .bootstrap listed =>
    match (session.listing listed).bootstrap with
    | (session, .ok ()) => (session, .ok .done)
    | (session, .error error) => (session, .error (.plugin error))

/-- The session after operations in order. -/
def run (session : Session) (operations : List Operation) : Session :=
  operations.foldl (fun session operation => (session.step operation).1) session

end Session

end PropertyWrapper
