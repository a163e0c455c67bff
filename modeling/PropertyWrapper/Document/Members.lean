import PropertyWrapper.Document.Hash

/-!
# Members of sets

A set lists its members in the order of their slots. A member takes the slot that its hash names; when
it is taken, the slots next to it and then slots further away are tried in a fixed order. The number
of slots depends on the number of members alone.
-/

namespace PropertyWrapper.Document

/-- Some slots, a part of which is taken by members. -/
abbrev Slots := Array (Option Scalar)

namespace Slots

/-- The slots of an empty set. -/
def least : Nat := 8

/-- How many slots behind the first one are tried, where there are so many. -/
def neighbours : Nat := 9

/-- Doubles a number of slots until it exceeds a bound; the fuel bounds how often. -/
def grown (bound : Nat) : Nat → Nat → Nat
  | 0, count => count
  | fuel + 1, count => if bound < count then count else grown bound fuel (2 * count)

/-- The number of slots for so many members: at least twice as many, once they would fill three
fifths of the least number. -/
def countFor (members : Nat) : Nat :=
  if members * 5 < (least - 1) * 3 then least else grown (2 * members) members least

/-- The first free slot for a member: from a start on, then from the next start, which the rest of the
hash shifts. The fuel bounds the number of starts. -/
def free? (slots : Slots) : Nat → Nat → Nat → Option Nat
  | 0, _, _ => none
  | fuel + 1, start, rest =>
    let width := if start + neighbours < slots.size then neighbours + 1 else 1
    match (List.range' start width).find? fun slot => (slots.getD slot none).isNone with
    | some slot => some slot
    | none =>
      let rest := rest / 32
      free? slots fuel ((5 * start + 1 + rest) % slots.size) rest

/-- A hash as an unsigned word. -/
def word (hash : Int) : Nat := (hash.emod (Nat.pow 2 64)).toNat

/-- Gives a member with a hash its slot. Some slots are always free, and all are tried once the rest of the hash
is used up, for which 13 starts suffice. -/
def insert (hashOf : Scalar → Int) (slots : Slots) (member : Scalar) : Slots :=
  let hash := word (hashOf member)
  match slots.free? (slots.size + 13) (hash % slots.size) hash with
  | some slot => slots.setIfInBounds slot (some member)
  | none => slots

/-- The slots of given members. -/
def ofMembers (hashOf : Scalar → Int) (members : List Scalar) : Slots :=
  members.foldl (insert hashOf) (Array.replicate (countFor members.length) none)

/-- The members in the order of their slots. -/
def members (slots : Slots) : List Scalar :=
  slots.toList.filterMap id

end Slots

/-- The order in which a set lists given members, no two of which are equal. -/
def setOrder (hashOf : Scalar → Int) (members : List Scalar) : List Scalar :=
  (Slots.ofMembers hashOf members).members

end PropertyWrapper.Document
