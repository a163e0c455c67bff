import PropertyWrapper.Document.Value
import PropertyWrapper.Model.Config
import PropertyWrapper.Sorting.Stable

/-!
# Configurations from mappings

A configuration can be given by a mapping from field names to values. Flags are read by whether the
value counts as true, and types by the plain form of the value; a missing or null type is no type.
-/

namespace PropertyWrapper

open Document Sorting Text

/-- The names of fields that no configuration has, in ascending order. -/
structure UnknownFields where
  names : List LooseText
deriving DecidableEq, Repr

/-- The explanation of unknown fields. -/
def UnknownFields.message (unknown : UnknownFields) : LooseText :=
  "Unknown wrapper config field(s): " ++ LooseText.join ", " unknown.names

/-- The value of a field in a mapping. -/
def fieldValue? (entries : List (Scalar × Value)) (field : Field) : Option Value :=
  entries.lookup (.text field.name)

/-- Whether the value of a field counts as true. -/
def fieldFlag (entries : List (Scalar × Value)) (field : Field) : Bool :=
  (fieldValue? entries field).any Value.isTruthy

/-- The plain form of the value of a field, unless it is null. -/
def fieldText? (entries : List (Scalar × Value)) (field : Field) : Option LooseText :=
  match fieldValue? entries field with
  | none => none
  | some (.scalar .null) => none
  | some value => some value.plain

/-- Whether a key of a mapping names a field. -/
def isFieldKey (key : Scalar) : Bool := Field.all.any fun field => key = .text field.name

/-- The configuration that a mapping gives. -/
def WrapperConfig.ofMapping (entries : List (Scalar × Value)) :
    Except UnknownFields WrapperConfig :=
  let unknown := (entries.map (·.1)).filter fun key => !isFieldKey key
  if unknown.isEmpty then
    .ok {
      wrappedIsSettable := fieldFlag entries .wrappedIsSettable
      projectedIsSettable := fieldFlag entries .projectedIsSettable
      isReference := fieldFlag entries .isReference
      wrapperType := fieldText? entries .wrapperType
      projectedType := fieldText? entries .projectedType }
  else .error ⟨sortStably LooseText.precedes (unknown.map Scalar.plain)⟩

end PropertyWrapper
