import PropertyWrapper.Document.Hash
import PropertyWrapper.Document.Value

/-!
# Hashes of values

How values are hashed is up to the run. The values of documents are hashed by their scalars: a scalar has
a hash, and a value with parts has none.
-/

namespace PropertyWrapper.Document

/-- A kind of value that has no hash. -/
structure Unhashable where
  kind : String
deriving DecidableEq, Repr

/-- How values of a type are hashed: the hash of a value, unless it has none, and hashes as values. -/
structure Hashing (α : Type) where
  hash : α → Except Unhashable Int
  ofHash : Int → α

/-- The hash of a value in a run that gives hashes to the scalars that are no numbers; values with parts
have none. -/
def Value.hash (run : Scalar → Int) : Value → Except Unhashable Int
  | .scalar value => .ok (value.hash run)
  | .sequence _ => .error ⟨"list"⟩
  | .mapping _ => .error ⟨"dict"⟩
  | .set _ => .error ⟨"set"⟩
  | .pairs _ => .error ⟨"list"⟩
  | .again isMapping => .error ⟨if isMapping then "dict" else "list"⟩

/-- How the values of documents are hashed in a run. -/
def valueHashing (run : Scalar → Int) : Hashing Value where
  hash := Value.hash run
  ofHash hash := .scalar (.int hash)

end PropertyWrapper.Document
