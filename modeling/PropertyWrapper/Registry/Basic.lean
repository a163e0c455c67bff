import PropertyWrapper.Document.Scalar
import PropertyWrapper.Lifting.Reference
import PropertyWrapper.Model.Config

/-!
# Registries

A registry maps the names of wrappers to their configurations and lists them in the order in which
they were first written. A registry file can also give keys that are no texts; no attribute refers to
them, but they are listed.
-/

namespace PropertyWrapper

open Document

/-- What a configuration is registered under: the name of a wrapper, or another scalar. -/
abbrev Key := Scalar

/-- Configurations by key, in the order of their first writes. -/
structure Registry where
  entries : List (Key × WrapperConfig) := []
deriving DecidableEq, Repr

/-- Why a registry refuses an operation. -/
inductive RegistryError where
  | alreadyRegistered (name : String)
  | notRegistered (name : String)
deriving DecidableEq, Repr

/-- The explanation of a refusal. -/
def RegistryError.message : RegistryError → String
  | .alreadyRegistered name => "Wrapper '" ++ name ++ "' already registered"
  | .notRegistered name => "Wrapper '" ++ name ++ "' is not registered"

namespace Registry

/-- The registry without wrappers. -/
def empty : Registry := {}

/-- The keys in order. -/
def keys (registry : Registry) : List Key := registry.entries.map (·.1)

/-- The configuration under a key. -/
def find? (registry : Registry) (key : Key) : Option WrapperConfig :=
  registry.entries.lookup key

/-- Whether a key has a configuration. -/
def contains (registry : Registry) (key : Key) : Bool := registry.keys.contains key

/-- Entries after a write: the value changes in place, or the entry is added at the end. -/
def writeEntry (key : Key) (config : WrapperConfig) :
    List (Key × WrapperConfig) → List (Key × WrapperConfig)
  | [] => [(key, config)]
  | (key', config') :: rest =>
    if key' = key then (key', config) :: rest else (key', config') :: writeEntry key config rest

/-- After a write its key has the written configuration. -/
theorem lookup_writeEntry_self (key : Key) (config : WrapperConfig)
    (entries : List (Key × WrapperConfig)) :
    (writeEntry key config entries).lookup key = some config := by
  induction entries with
  | nil => simp [writeEntry]
  | cons entry rest ih =>
    rw [writeEntry]
    split
    · rename_i h
      rw [h, List.lookup_cons_self]
    · rename_i h
      have hne : (key == entry.1) = false := by simpa using Ne.symm h
      rw [List.lookup_cons, hne]
      exact ih

/-- A write leaves the other keys alone. -/
theorem lookup_writeEntry_of_ne {key other : Key} (config : WrapperConfig)
    (entries : List (Key × WrapperConfig)) (h : other ≠ key) :
    (writeEntry key config entries).lookup other = entries.lookup other := by
  have hne : (other == key) = false := by simpa using h
  induction entries with
  | nil => simp [writeEntry, List.lookup_cons, hne]
  | cons entry rest ih =>
    rw [writeEntry]
    split
    · rename_i hkey
      rw [List.lookup_cons, List.lookup_cons, hkey, hne]
    · rw [List.lookup_cons, List.lookup_cons, ih]

/-- A write adds a new key at the end and keeps the places of all others. -/
theorem keys_writeEntry (key : Key) (config : WrapperConfig)
    (entries : List (Key × WrapperConfig)) :
    (writeEntry key config entries).map (·.1) =
      if key ∈ entries.map (·.1) then entries.map (·.1) else entries.map (·.1) ++ [key] := by
  induction entries with
  | nil => simp [writeEntry]
  | cons entry rest ih =>
    rw [writeEntry]
    split
    · rename_i h
      simp [h]
    · rename_i h
      have hne : key ≠ entry.1 := Ne.symm h
      rw [List.map_cons, ih]
      by_cases hmem : key ∈ rest.map (·.1) <;> simp_all

/-- The registry after a configuration was written under a key. -/
def write (registry : Registry) (key : Key) (config : WrapperConfig) : Registry :=
  ⟨writeEntry key config registry.entries⟩

/-- The registry after all entries of a list were written in order. -/
def overlay (registry : Registry) (entries : List (Key × WrapperConfig)) : Registry :=
  entries.foldl (fun registry entry => registry.write entry.1 entry.2) registry

/-- The registry after a new name was registered. A name that is present is refused. -/
def register (registry : Registry) (name : String) (config : WrapperConfig) :
    Except RegistryError Registry :=
  if registry.contains (.text name) then .error (.alreadyRegistered name)
  else .ok (registry.write (.text name) config)

/-- The configuration of a name that must be present. -/
def get (registry : Registry) (name : String) : Except RegistryError WrapperConfig :=
  match registry.find? (.text name) with
  | some config => .ok config
  | none => .error (.notRegistered name)

/-- The configuration that a reference resolves to: that of the name as written, else that of its
last component. -/
def resolve (registry : Registry) (name : Option String) : Option WrapperConfig :=
  name.bind fun name =>
    registry.find? (.text name) <|> registry.find? (.text (lastComponent name))

end Registry

/-! ## Built-in wrappers -/

/-- The configurations of the wrappers that come with the library. -/
def builtinWrappers : List (Key × WrapperConfig) := [
    (.text "Example", {}),
    (.text "ExampleSettable", { wrappedIsSettable := true, isReference := true }),
    (.text "ExampleWithProjected", { projectedType := some "int" }),
    (.text "ExampleWithSettableProjected",
      { projectedIsSettable := true, isReference := true, projectedType := some "int" }),
    (.text "ExampleWithWrappedValue", {})
  ]

/-- The registry after the built-in wrappers were written. -/
def Registry.withBuiltins (registry : Registry) : Registry := registry.overlay builtinWrappers

/-! ## Layers -/

/-- What a registry file contributes. -/
structure RegistryFile where
  includeBuiltins : Bool := true
  wrappers : List (Key × WrapperConfig) := []
deriving DecidableEq, Repr

/-- The registry for one run: the built-in wrappers if they are wanted, over them the registrations
that all runs share, and over those the wrappers of a file. -/
def Registry.build (shared : Registry) (file : Option RegistryFile) (includeBuiltins : Bool) :
    Registry :=
  let base : Registry :=
    if includeBuiltins && file.all (·.includeBuiltins) then Registry.empty.withBuiltins else .empty
  (base.overlay shared.entries).overlay (file.elim [] (·.wrappers))

end PropertyWrapper
