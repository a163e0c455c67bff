import PropertyWrapper.Expansion.Rendering
import PropertyWrapper.Source.Printer

/-!
# Traces of an expansion

An expansion leaves a list of events behind, also when an error stops it. All that is reported about an
expansion, such as counts, generated configurations and diagnostics, is read off the events.
-/

namespace PropertyWrapper

open Source

/-! ## Events -/

/-- What can happen in an expansion. -/
inductive Event where
  /-- A marked type was found to be a wrapper. -/
  | introspected (name : String) (kind : DeclarationKind) (config : WrapperConfig)
  /-- A configuration was generated for a wrapper. -/
  | generated (declaration : ConfigDeclaration)
  /-- A property was replaced by accessors and a storage. -/
  | synthesized (identifier attributeName : String) (binding : Binding)
  /-- A further wrapper on a property was passed over. -/
  | ignored (text : String) (line : Nat)
  /-- A problem was reported. -/
  | diagnosed (diagnostic : Diagnostic)
deriving DecidableEq, Repr

namespace Event

/-- The configuration that an event generates. -/
def config? : Event → Option ConfigDeclaration
  | .generated declaration => some declaration
  | _ => none

/-- The binding of the storage that an event creates. -/
def storage? : Event → Option Binding
  | .synthesized _ _ binding => some binding
  | _ => none

/-- The problem that an event reports. -/
def diagnostic? : Event → Option Diagnostic
  | .diagnosed diagnostic => some diagnostic
  | _ => none

/-- The warning that an event gives. -/
def warning? : Event → Option String
  | .ignored text line =>
    some ("Only one wrapper per property is expanded; ignoring " ++ text ++ " on line "
      ++ toString line)
  | _ => none

end Event

/-! ## Traces -/

/-- Why an expansion stops. -/
inductive ExpansionError where
  /-- The source cannot be read. -/
  | source (error : SourceError)
  /-- A part of the source or the expanded module cannot be written. -/
  | print (error : PrintError)
  /-- A generated declaration has no statements. -/
  | render (error : RenderError)

/-- The events so far, and a value or the error that stopped the expansion. -/
structure Trace (α : Type) where
  events : List Event
  result : Except ExpansionError α

namespace Trace

variable {α β : Type}

/-- The steps of a trace, then those that follow from its value. -/
def andThen (trace : Trace α) (next : α → Trace β) : Trace β :=
  match trace.result with
  | .ok value =>
    let rest := next value
    ⟨trace.events ++ rest.events, rest.result⟩
  | .error error => ⟨trace.events, .error error⟩

instance : Monad Trace where
  pure value := ⟨[], .ok value⟩
  bind := andThen

/-- One event. -/
def note (event : Event) : Trace Unit := ⟨[event], .ok ()⟩

/-- A result without events. -/
def ofResult (result : Except ExpansionError α) : Trace α := ⟨[], result⟩

/-- A result of writing a part of the source. -/
def printing (result : Except PrintError α) : Trace α := ofResult (result.mapError .print)

end Trace

end PropertyWrapper
