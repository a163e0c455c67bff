import PropertyWrapper.Document.Value

/-!
# Contents of documents

What a document denotes: a scalar or a collection whose parts are scalars and collections again.
Collections are known by their numbers, since one of them can stand at several places and even inside
itself. Unfolding a content gives a value, that is, a tree.
-/

namespace PropertyWrapper.Document

/-! ## Collections -/

/-- A part of a content. -/
inductive Item where
  | scalar (value : Scalar)
  | collection (id : Nat)
deriving DecidableEq, Repr

/-- A collection of items. -/
inductive Collection where
  | sequence (items : List Item)
  /-- Keys and items in document order. -/
  | mapping (entries : List (Scalar × Item))
  | set (members : List Scalar)
  | pairs (items : List (Item × Item))
deriving DecidableEq, Repr

instance : Inhabited Collection := ⟨.sequence []⟩

/-- Whether a collection is a mapping. -/
def Collection.isMapping : Collection → Bool
  | .mapping _ => true
  | _ => false

/-- A root and the collections that it reaches, by their numbers. -/
structure Content where
  collections : Array Collection
  root : Item

namespace Content

/-- The content of a scalar. -/
def ofScalar (value : Scalar) : Content := ⟨#[], .scalar value⟩

/-- The collection of a number. -/
def collection (content : Content) (id : Nat) : Collection := (content.collections[id]?).getD default

/-! ## Unfolding -/

/-- An item as a tree, inside some open collections, which are only hinted at. The fuel bounds how many
collections are open at once. -/
def unfoldInside (content : Content) : Nat → List Nat → Item → Value
  | _, _, .scalar value => .scalar value
  | 0, _, .collection id => .again (content.collection id).isMapping
  | fuel + 1, opened, .collection id =>
    if opened.contains id then .again (content.collection id).isMapping
    else
      let inner := unfoldInside content fuel (id :: opened)
      match content.collection id with
      | .sequence items => .sequence (items.map inner)
      | .mapping entries => .mapping (entries.map fun (key, item) => (key, inner item))
      | .set members => .set members
      | .pairs items => .pairs (items.map fun (first, second) => (inner first, inner second))

/-- An item as a tree of its own. -/
def unfold (content : Content) (item : Item) : Value :=
  content.unfoldInside (content.collections.size + 1) [] item

/-- An item at a path as a tree. Down to a number of levels, a mapping is opened at the paths that are
looked into, and each of its items is a tree of its own again. -/
def viewAt (content : Content) (looksInto : List Scalar → Bool) :
    Nat → List Scalar → Item → Value
  | levels + 1, path, .collection id =>
    match content.collection id, looksInto path with
    | .mapping entries, true =>
      .mapping (entries.map fun (key, item) =>
        (key, viewAt content looksInto levels (path ++ [key]) item))
    | _, _ => content.unfold (.collection id)
  | _, _, item => content.unfold item

/-- The root as a tree, opened at the paths that are looked into. -/
def view (content : Content) (looksInto : List Scalar → Bool) (levels : Nat) : Value :=
  content.viewAt looksInto levels [] content.root

/-- A scalar is its own tree. -/
@[simp] theorem view_ofScalar (value : Scalar) (looksInto : List Scalar → Bool) (levels : Nat) :
    (ofScalar value).view looksInto levels = .scalar value := by
  cases levels <;> simp [view, viewAt, ofScalar, unfold, unfoldInside]

end Content

end PropertyWrapper.Document
