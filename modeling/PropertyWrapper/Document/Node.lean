import PropertyWrapper.Document.Number

/-!
# Nodes of documents

A node is a scalar or a collection of nodes, with a tag that says what it denotes. A scalar that is
written plainly and has no tag gets one from its text. A document is the table of its nodes: a
collection names its parts by their numbers in the table, so that it can contain itself.
-/

namespace PropertyWrapper.Document

open Text

/-! ## Tags -/

/-- What a node denotes. -/
inductive Tag where
  | null | bool | int | float | time | bytes | text
  | sequence | mapping | set
  /-- A sequence of single entries whose keys differ. -/
  | orderedMapping
  /-- A sequence of single entries. -/
  | pairs
  /-- The key of entries that are taken over from elsewhere. -/
  | merge
  /-- The key of the value that stands for a whole mapping. -/
  | default
  /-- A tag without a meaning. -/
  | unknown
deriving DecidableEq, Repr

namespace Tag

/-- Where the names of the common tags start. -/
def commonStart : String := "tag:yaml.org,2002:"

/-- The common tags by the ends of their names. -/
def common : List (String × Tag) := [
    ("null", .null), ("bool", .bool), ("int", .int), ("float", .float), ("timestamp", .time),
    ("binary", .bytes), ("str", .text), ("seq", .sequence), ("map", .mapping), ("set", .set),
    ("omap", .orderedMapping), ("pairs", .pairs), ("merge", .merge), ("value", .default)
  ]

/-- The tag with a full name. -/
def named (name : String) : Tag :=
  ((common.map fun entry => (commonStart ++ entry.1, entry.2)).lookup name).getD .unknown

/-- The words for truth values. -/
def truthWords : List (String × Bool) := [
    ("yes", true), ("no", false), ("true", true), ("false", false), ("on", true), ("off", false)
  ]

/-- A word with a capital letter at its start. -/
def capitalized (word : String) : String :=
  match word.toList with
  | [] => ""
  | c :: rest => String.ofList (c.toUpper :: rest)

/-- The spellings of a word: lower case, capitalized, upper case. -/
def spellings (word : String) : List String := [word, capitalized word, word.map Char.toUpper]

/-- The tag of a plain text. A line break at its end does not count, unless it is all there is. -/
def ofPlain (plain : String) : Tag :=
  let chars := plain.toList
  let chars := if chars.getLast? = some '\n' then chars.dropLast else chars
  let text := String.ofList chars
  if truthWords.any fun entry => (spellings entry.1).contains text then .bool
  else if isFloatText chars then .float
  else if isIntegerText chars then .int
  else if text = "<<" then .merge
  else if plain = "" || text = "~" || (spellings "null").contains text then .null
  else if isDateText chars then .time
  else if text = "=" then .default
  else if ["!", "&", "*"].contains text then .unknown
  else .text

end Tag

/-! ## Nodes -/

/-- A node of a document, with its parts by their numbers. -/
inductive Node where
  | scalar (tag : Tag) (text : Points)
  | sequence (tag : Tag) (items : List Nat)
  | mapping (tag : Tag) (entries : List (Nat × Nat))
deriving DecidableEq, Repr

namespace Node

/-- The tag of a node. -/
def tag : Node → Tag
  | .scalar tag _ => tag
  | .sequence tag _ => tag
  | .mapping tag _ => tag

/-- The node for what is left out. -/
def empty : Node := .scalar .null []

/-- A node with another tag. -/
def withTag (tag : Tag) : Node → Node
  | .scalar _ text => .scalar tag text
  | .sequence _ items => .sequence tag items
  | .mapping _ entries => .mapping tag entries

/-- The entries of a mapping; other nodes have none. -/
def entries : Node → List (Nat × Nat)
  | .mapping _ entries => entries
  | _ => []

/-- A mapping with other entries. -/
def withEntries (entries : List (Nat × Nat)) : Node → Node
  | .mapping tag _ => .mapping tag entries
  | node => node

end Node

/-! ## Tables of nodes -/

/-- The nodes of a document by their numbers. -/
structure Graph where
  nodes : Array Node := #[]

namespace Graph

/-- How many nodes there are. -/
def size (graph : Graph) : Nat := graph.nodes.size

/-- The node of a number. -/
def node (graph : Graph) (id : Nat) : Node := (graph.nodes[id]?).getD .empty

/-- A table with one more node, whose number is the former size. -/
def push (graph : Graph) (node : Node) : Graph := ⟨graph.nodes.push node⟩

/-- A table with another node at a number. -/
def set (graph : Graph) (id : Nat) (node : Node) : Graph := ⟨graph.nodes.setIfInBounds id node⟩

/-- How many entries all mappings have together. -/
def entryCount (graph : Graph) : Nat :=
  graph.nodes.foldl (fun count node => count + node.entries.length) 0

end Graph

end PropertyWrapper.Document
