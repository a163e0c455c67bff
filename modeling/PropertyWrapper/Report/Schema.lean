import PropertyWrapper.Model.Config
import PropertyWrapper.Report.Json

/-!
# Schemas

A schema says what a JSON value must look like: its type, the least number, the words of a text, and
the members of an object. An object can have more members than its schema knows.
-/

namespace PropertyWrapper.Report

open Text

/-- What values must look like. -/
inductive Schema where
  | text
  /-- A text or null. -/
  | optionalText
  /-- One of some texts. -/
  | word (words : List String)
  | flag
  | integer
  /-- An integer that is not negative. -/
  | natural
  /-- An object with any members. -/
  | anyObject
  | array (items : Schema)
  /-- An object with the names of the members that it must have, and the schemas of those that it can
  have. -/
  | object (required : List String) (properties : List (String × Schema))

/-- The names of the types that a schema admits. -/
def Schema.types : Schema → List String
  | .text | .word _ => ["string"]
  | .optionalText => ["string", "null"]
  | .flag => ["boolean"]
  | .integer | .natural => ["integer"]
  | .anyObject | .object _ _ => ["object"]
  | .array _ => ["array"]

/-! ## Faults -/

mutual

/-- A value as it is shown in the explanation of a fault. -/
def Json.literal : Json → String
  | .null => "None"
  | .bool value => flagWord value
  | .int value => toString value
  | .text value => value.quoted
  | .array items => "[" ++ String.intercalate ", " (itemLiterals items) ++ "]"
  | .object members => "\x7b" ++ String.intercalate ", " (memberLiterals members) ++ "\x7d"

/-- The items of an array as they are shown. -/
def itemLiterals : List Json → List String
  | [] => []
  | item :: rest => item.literal :: itemLiterals rest

/-- The members of an object as they are shown. -/
def memberLiterals : List (String × Json) → List String
  | [] => []
  | entry :: rest => memberLiteral entry :: memberLiterals rest

/-- A member of an object as it is shown. -/
def memberLiteral : String × Json → String
  | (name, value) => quoted name ++ ": " ++ value.literal

end

/-- Why a value does not have the form of a schema. -/
inductive Fault where
  | wrongType (value : Json) (types : List String)
  | missing (name : String)
  | unknownWord (word : LooseText) (words : List String)
  | negative (value : Int)

/-- The explanation of a fault. -/
def Fault.message : Fault → String
  | .wrongType value types =>
    value.literal ++ " is not of type " ++ String.intercalate ", " (types.map quoted)
  | .missing name => quoted name ++ " is a required property"
  | .unknownWord word words =>
    word.quoted ++ " is not one of [" ++ String.intercalate ", " (words.map quoted) ++ "]"
  | .negative value => toString value ++ " is less than the minimum of 0"

/-! ## Validation -/

/-- The names that no member of an object has. -/
def absentNames (members : List (String × Json)) (names : List String) : List String :=
  names.filter fun name => (members.lookup name).isNone

mutual

/-- The faults of a value. A value of a wrong type has no others. -/
def Schema.faults : Schema → Json → List Fault
  | .text, .text _ => []
  | .optionalText, .text _ => []
  | .optionalText, .null => []
  | .word words, .text word => if words.any (.whole · = word) then [] else [.unknownWord word words]
  | .flag, .bool _ => []
  | .integer, .int _ => []
  | .natural, .int value => if value < 0 then [.negative value] else []
  | .anyObject, .object _ => []
  | .array schema, .array items => items.flatMap fun item => schema.faults item
  | .object required properties, .object members =>
    (absentNames members required).map .missing ++ propertiesFaults members properties
  | schema, value => [.wrongType value schema.types]

/-- The faults of the members of an object in the order of the schemas. -/
def propertiesFaults (members : List (String × Json)) : List (String × Schema) → List Fault
  | [] => []
  | property :: rest => propertyFaults members property ++ propertiesFaults members rest

/-- The faults of a member of an object; an absent member has none. -/
def propertyFaults (members : List (String × Json)) : String × Schema → List Fault
  | (name, schema) => (members.lookup name).elim [] fun value => schema.faults value

end

end PropertyWrapper.Report
