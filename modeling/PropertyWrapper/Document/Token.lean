import PropertyWrapper.Text.Quoted

/-!
# Tokens of documents

The tokens of a YAML 1.1 text. Indentation shows up as tokens that open and close block collections,
and a key that is only recognised by the colon behind it gets its token in front of it.
-/

namespace PropertyWrapper.Document

open Text

/-- Why a document cannot be read. -/
inductive DocumentError where
  /-- The text is not a document. -/
  | malformed
  /-- A scalar does not denote a value of its type. -/
  | badScalar (message : String)
  /-- A word does not denote a truth value. -/
  | badWord (word : String)
  /-- A number has no digits at all. -/
  | emptyNumber
  /-- A text does not denote a date or a moment. -/
  | notATime
  /-- A mapping stands where the text of a date is read. -/
  | timeOfMapping
  /-- A number is beyond the range of what it is to be used for. -/
  | overflow (message : String)
  /-- A scalar is defined by itself. -/
  | endless
deriving DecidableEq, Repr

/-- The explanation of an error, if there is one. -/
def DocumentError.message? : DocumentError → Option String
  | .malformed => none
  | .badScalar message => some message
  | .badWord word => some word
  | .emptyNumber => some "string index out of range"
  | .notATime => some "'NoneType' object has no attribute 'groupdict'"
  | .timeOfMapping => some "expected string or bytes-like object, got 'list'"
  | .overflow message => some message
  | .endless => none

/-- A directive in front of a document. -/
inductive Directive where
  | version (major : Nat)
  | tagHandle (handle expansion : String)
  | other
deriving DecidableEq, Repr

/-- A token. -/
inductive Token where
  | streamEnd
  | directive (directive : Directive)
  | documentStart
  | documentEnd
  | blockSequenceStart
  | blockMappingStart
  | blockEnd
  | flowSequenceStart
  | flowSequenceEnd
  | flowMappingStart
  | flowMappingEnd
  | flowEntry
  | blockEntry
  | key
  | value
  | alias (name : String)
  | anchor (name : String)
  /-- A tag with its handle, if it has one. -/
  | tag (handle : Option String) (suffix : String)
  | scalar (isPlain : Bool) (text : Points)
deriving DecidableEq, Repr

end PropertyWrapper.Document
