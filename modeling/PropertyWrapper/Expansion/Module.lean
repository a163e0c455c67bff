import PropertyWrapper.Expansion.Imports
import PropertyWrapper.Expansion.Introspect
import PropertyWrapper.Expansion.Property

/-!
# Expansion of modules

A module is expanded in two passes: the first finds wrapper types and adds their configurations to the
registry, the second replaces wrapped properties. A module in which nothing happened keeps its text.
-/

namespace PropertyWrapper

open Source

/-! ## Trees -/

/-- The registry entries of generated configurations. -/
def configEntries (events : List Event) : List (Key × WrapperConfig) :=
  (events.filterMap Event.config?).map fun declaration =>
    (.text declaration.wrapper, declaration.config)

/-- The names that the code generated by some events uses, in the order of their imports. -/
def usedProvisions (events : List Event) : List Provision :=
  let storages := events.filterMap Event.storage?
  (if storages.isEmpty then [] else [storageProvision])
    ++ (if storages.contains .immutable then [finalProvision] else [])
    ++ (if (events.filterMap Event.config?).isEmpty then [] else [configProvision])

/-- The two passes over a module, without imports. The second one uses the registry that the first
one extends. -/
def expandTree (registry : Registry) (filename : String) (body : List Stmt) :
    Trace (List Stmt) :=
  let first := introspectBody filename body
  first.andThen fun body =>
    expandBody (registry.overlay (configEntries first.events)) filename false body

/-- The expansion of a module. -/
def expandModule (registry : Registry) (filename : String) (body : List Stmt) :
    Trace (List Stmt) :=
  let passes := expandTree registry filename body
  passes.andThen fun body => pure (provide (usedProvisions passes.events) body)

/-! ## Sources -/

/-- The outcome of expanding one source. -/
structure Outcome where
  source : String
  diagnostics : List Diagnostic := []
  configs : List ConfigDeclaration := []
  /-- How many properties were expanded. -/
  expanded : Int := 0
  changed : Bool := false
deriving DecidableEq, Repr

namespace Outcome

/-- How many configurations were generated. -/
def generated (outcome : Outcome) : Nat := outcome.configs.length

/-- Whether no problem was found. -/
def isOk (outcome : Outcome) : Bool := outcome.diagnostics.isEmpty

/-- The outcome of a changed source, read off the events of its expansion. -/
def ofEvents (source : String) (events : List Event) : Outcome where
  source
  diagnostics := events.filterMap Event.diagnostic?
  configs := events.filterMap Event.config?
  expanded := (events.filterMap Event.storage?).length
  changed := true

end Outcome

/-- The expansion of a source. When nothing happened the source is returned as it is. -/
def expandSource (registry : Registry) (filename source : String) : Trace Outcome := do
  let body ← Trace.ofResult ((parseModule source).mapError .source)
  let expansion := expandModule registry filename body
  let expanded ← expansion
  if expansion.events.isEmpty then return { source }
  else
    let text ← Trace.printing (printModule expanded)
    return .ofEvents (text ++ "\n") expansion.events

end PropertyWrapper
