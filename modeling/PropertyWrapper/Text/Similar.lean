import PropertyWrapper.Sorting.Stable
import PropertyWrapper.Text.Quoted

/-!
# Similar words

Two words are compared by the characters in their common blocks: the longest common block, and the
blocks found in the same way to its left and right. Words are similar if at least three fifths of
their characters match.
-/

namespace PropertyWrapper.Text

open Sorting

/-! ## Common blocks -/

/-- A block that two words share: where it starts in each, and its length. -/
structure Block where
  left : Nat
  right : Nat
  length : Nat
deriving DecidableEq, Repr

/-- The length of the common start of two words. -/
def commonStart : List Char → List Char → Nat
  | a :: as, b :: bs => if a = b then commonStart as bs + 1 else 0
  | _, _ => 0

/-- The longest block that two words share; of several, the one furthest to the left in the first
word, and then in the second. -/
def longestBlock (a b : List Char) : Block :=
  (List.range a.length).foldl
    (fun best i =>
      (List.range b.length).foldl
        (fun best j =>
          let length := commonStart (a.drop i) (b.drop j)
          if best.length < length then ⟨i, j, length⟩ else best)
        best)
    ⟨0, 0, 0⟩

/-- How many characters the common blocks of two words have, found in a number of rounds. -/
def matchingIn : Nat → List Char → List Char → Nat
  | 0, _, _ => 0
  | rounds + 1, a, b =>
    let block := longestBlock a b
    if block.length = 0 then 0
    else
      matchingIn rounds (a.take block.left) (b.take block.right) + block.length
        + matchingIn rounds (a.drop (block.left + block.length)) (b.drop (block.right + block.length))

/-- How many characters the common blocks of two words have. Every round uses up a character. -/
def matching (a b : List Char) : Nat := matchingIn a.length a b

/-! ## Suggestions -/

/-- A word with its number of matching characters and the length of both words together. -/
structure Candidate where
  word : String
  matched : Nat
  total : Nat
deriving DecidableEq, Repr

/-- A word as a candidate for another one. -/
def Candidate.of (wanted word : String) : Candidate :=
  { word
    matched := matching word.toList wanted.toList
    total := word.length + wanted.length }

/-- Whether at least three fifths of the characters match. -/
def Candidate.isSimilar (candidate : Candidate) : Bool :=
  3 * candidate.total ≤ 10 * candidate.matched

/-- Whether a candidate is at least as good as another one: by the share of matching characters, then
by the word. -/
def Candidate.isAsGood (a b : Candidate) : Bool :=
  let left := a.matched * b.total
  let right := b.matched * a.total
  right < left || (left = right && decide (b.word ≤ a.word))

/-- The words most similar to another one, at most three, in ascending order. -/
def similarWords (wanted : String) (words : List String) : List String :=
  let similar := (words.map (Candidate.of wanted)).filter Candidate.isSimilar
  let best := (sortStably Candidate.isAsGood similar).take 3
  sortStably (fun a b => decide (a ≤ b)) (best.map Candidate.word)

/-- The question whether one of some words was meant. -/
def suggestion : List String → String
  | [] => ""
  | [word] => " Did you mean " ++ quoted word ++ "?"
  | words => " (Did you mean one of: " ++ String.intercalate ", " (words.map quoted) ++ "?)"

end PropertyWrapper.Text
