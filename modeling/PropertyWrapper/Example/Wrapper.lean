import PropertyWrapper.Example.Hash
import PropertyWrapper.Model.Introspection

/-!
# Example wrappers

The wrappers behind the built-in configurations, as objects with attributes that can be read and
assigned. A projection is the hash of the wrapped value; one class computes it anew at every read, the
other keeps the first value that it computed and lets it be overwritten. The values are of any type, and how
they are hashed is a parameter.
-/

namespace PropertyWrapper

open Document

/-- The classes of example wrappers. -/
inductive ExampleClass where
  /-- The wrapped value can only be read. -/
  | plain
  /-- The wrapped value can be assigned. -/
  | settable
  /-- The projection is computed at every read. -/
  | projected
  /-- The projection is computed once and can be assigned. -/
  | settableProjected
  /-- The wrapped value must be passed by name. -/
  | labelled
deriving DecidableEq, Repr

namespace ExampleClass

/-- The name of a class. -/
def name : ExampleClass → String
  | .plain => "Example"
  | .settable => "ExampleSettable"
  | .projected => "ExampleWithProjected"
  | .settableProjected => "ExampleWithSettableProjected"
  | .labelled => "ExampleWithWrappedValue"

/-- All classes. -/
def all : List ExampleClass := [.plain, .settable, .projected, .settableProjected, .labelled]

/-- The attribute that holds the wrapped value. -/
def valueAttribute : ExampleClass → String
  | .plain => "_wrapped_value"
  | _ => wrappedValue

/-- The attribute that is computed at every read and cannot be assigned. -/
def computedAttribute? : ExampleClass → Option String
  | .plain => some wrappedValue
  | .projected => some projectedValue
  | _ => none

end ExampleClass

/-- Why an operation on an example wrapper fails. -/
inductive ExampleError where
  | positionalValue (cls : ExampleClass)
  | noAttribute (cls : ExampleClass) (name : String)
  | noSetter (cls : ExampleClass) (name : String)
  | unhashable (error : Unhashable)
deriving DecidableEq, Repr

/-- The explanation of a failure. -/
def ExampleError.message : ExampleError → String
  | .positionalValue cls => cls.name ++ ".__init__() takes 1 positional argument but 2 were given"
  | .noAttribute cls name => "'" ++ cls.name ++ "' object has no attribute '" ++ name ++ "'"
  | .noSetter cls name => "property '" ++ name ++ "' of '" ++ cls.name ++ "' object has no setter"
  | .unhashable error => "unhashable type: '" ++ error.kind ++ "'"

/-- An example wrapper of values of a type with its attributes, the latest assignment of an attribute
first. -/
structure WrapperObject (α : Type) where
  cls : ExampleClass
  attributes : List (String × α)

namespace WrapperObject

variable {α : Type}

/-- A new wrapper around a value, passed by name or by position. -/
def create (cls : ExampleClass) (byName : Bool) (value : α) : Except ExampleError (WrapperObject α) :=
  if cls = .labelled && !byName then .error (.positionalValue cls)
  else .ok ⟨cls, [(cls.valueAttribute, value)]⟩

/-- The attribute with a name. -/
def stored (wrapper : WrapperObject α) (name : String) : Except ExampleError α :=
  match wrapper.attributes.lookup name with
  | some value => .ok value
  | none => .error (.noAttribute wrapper.cls name)

/-- The wrapper after an attribute was stored. -/
def store (wrapper : WrapperObject α) (name : String) (value : α) : WrapperObject α :=
  { wrapper with attributes := (name, value) :: wrapper.attributes }

/-- The hash of the wrapped value. -/
def projection (hashing : Hashing α) (wrapper : WrapperObject α) : Except ExampleError α := do
  let value ← wrapper.stored wrapper.cls.valueAttribute
  match hashing.hash value with
  | .ok hash => return hashing.ofHash hash
  | .error error => throw (.unhashable error)

/-- The value of an attribute, and the wrapper after the read. A projection that is computed once is
stored by the first read that succeeds. -/
def read (hashing : Hashing α) (wrapper : WrapperObject α) (name : String) :
    Except ExampleError α × WrapperObject α :=
  if wrapper.cls.computedAttribute? = some name then
    if name = projectedValue then (wrapper.projection hashing, wrapper)
    else (wrapper.stored wrapper.cls.valueAttribute, wrapper)
  else
    match wrapper.stored name with
    | .ok value => (.ok value, wrapper)
    | .error error =>
      if wrapper.cls = .settableProjected && name = projectedValue then
        match wrapper.projection hashing with
        | .ok value => (.ok value, wrapper.store name value)
        | .error error => (.error error, wrapper)
      else (.error error, wrapper)

/-- The wrapper after an assignment of an attribute. -/
def assign (wrapper : WrapperObject α) (name : String) (value : α) :
    Except ExampleError (WrapperObject α) :=
  if wrapper.cls.computedAttribute? = some name then .error (.noSetter wrapper.cls name)
  else .ok (wrapper.store name value)

end WrapperObject

/-- An example wrapper of values of documents. -/
abbrev ExampleWrapper := WrapperObject Value

namespace ExampleWrapper

/-- A new wrapper around a value of a document. -/
def create (cls : ExampleClass) (byName : Bool) (value : Value) : Except ExampleError ExampleWrapper :=
  WrapperObject.create cls byName value

/-- A read of an attribute, where numbers and truth values are the scalars with hashes of their own. -/
def read (wrapper : ExampleWrapper) (name : String) : Except ExampleError Value × ExampleWrapper :=
  WrapperObject.read (valueHashing fun _ => 0) wrapper name

end ExampleWrapper

end PropertyWrapper
