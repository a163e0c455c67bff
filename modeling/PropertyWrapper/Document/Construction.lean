import PropertyWrapper.Document.Composition
import PropertyWrapper.Document.Content
import PropertyWrapper.Document.Members
import PropertyWrapper.Document.Order
import PropertyWrapper.Text.Base64

/-!
# Contents of nodes

What the nodes of a document denote. A scalar is read where it is met, while a collection waits until
all collections that were met before it have got their parts; the first fault in this order is
reported. A mapping takes over the entries of other mappings before its own entries are read.
-/

namespace PropertyWrapper.Document

open Text

/-! ## Scalars -/

/-- What a text denotes under the tag of a scalar. -/
def scalarValue (tag : Tag) (text : Points) : Except DocumentError Scalar := do
  let chars := text.map charOf
  match tag with
  | .null => return .null
  | .bool =>
    let word := String.ofList (lowerCase chars)
    match Tag.truthWords.lookup word with
    | some value => return .bool value
    | none => throw (.badWord word)
  | .int => return .int (← integerValue chars)
  | .float => return .float (← floatValue chars)
  | .time => dateValue (if chars.getLast? = some '\n' then chars.dropLast else chars)
  | .bytes =>
    match bytesOfBase64? chars with
    | some bytes => return .bytes bytes
    | none => throw .malformed
  | .text => return .ofPoints text
  | _ => throw .malformed

namespace Tag

/-- Whether a tag stands for a value with parts. -/
def isCollection : Tag → Bool
  | .sequence | .mapping | .set | .orderedMapping | .pairs => true
  | _ => false

/-- Whether a tag stands for a value without parts. -/
def isScalar : Tag → Bool
  | .null | .bool | .int | .float | .time | .bytes | .text => true
  | _ => false

end Tag

/-! ## Entries -/

/-- Entries after a write: the value changes at the first place of an equal key. -/
def putEntry {α : Type} (key : Scalar) (value : α) : List (Scalar × α) → List (Scalar × α)
  | [] => [(key, value)]
  | (key', value') :: rest =>
    if key'.sameKey key then (key', value) :: rest else (key', value') :: putEntry key value rest

/-- Entries without repeated keys: the last value counts, at the first place. -/
def distinctEntries {α : Type} (entries : List (Scalar × α)) : List (Scalar × α) :=
  entries.foldl (fun written entry => putEntry entry.1 entry.2 written) []

/-! ## Steps -/

/-- How far the contents of nodes are known. -/
structure BuildState where
  graph : Graph
  /-- The collections that were met. -/
  met : List Nat := []
  /-- Those of them that still lack their parts, the first to be met first. -/
  waiting : List Nat := []
  collections : Array Collection

/-- A step of the construction. -/
abbrev Build := StateT BuildState (Except DocumentError)

namespace Build

/-- The node has no content. -/
def fail {α : Type} : Build α := throw .malformed

/-- The node of a number. -/
def node (id : Nat) : Build Node := return (← get).graph.node id

/-- Replaces a node. -/
def setNode (id : Nat) (node : Node) : Build Unit :=
  modify fun s => { s with graph := s.graph.set id node }

/-- The first of some entries whose key has a tag. -/
def entryTagged? (tag : Tag) (entries : List (Nat × Nat)) : Build (Option (Nat × Nat)) := do
  let graph := (← get).graph
  return entries.find? fun entry => (graph.node entry.1).tag = tag

/-- Remembers that a collection was met. -/
def meet (id : Nat) : Build Unit :=
  modify fun s =>
    if s.met.contains id then s else { s with met := id :: s.met, waiting := s.waiting ++ [id] }

/-! ## Items -/

/-- The text of a scalar, or of the value that stands for a whole mapping. The fuel bounds how many
mappings stand for each other. -/
def text : Nat → Nat → Build Points
  | 0, _ => throw .endless
  | fuel + 1, id => do
    match ← node id with
    | .scalar _ text => return text
    | .sequence _ _ => fail
    | .mapping _ entries =>
      match ← entryTagged? .default entries with
      | some (_, value) => text fuel value
      | none => fail

/-- The text of a node, whatever its mappings stand for. -/
def wholeText (id : Nat) : Build Points := do text ((← get).graph.size + 1) id

/-- The content of a node with the tag of a scalar. A date is read only from a scalar itself. -/
def scalar (id : Nat) : Build Scalar := do
  let node ← node id
  if node.tag.isScalar then
    let text ← wholeText id
    match node.tag, node with
    | .time, .mapping _ _ => throw .timeOfMapping
    | tag, _ => scalarValue tag text
  else fail

/-- The content of a node; a collection is met. -/
def item (id : Nat) : Build Item := do
  if (← node id).tag.isCollection then
    meet id
    return .collection id
  else return .scalar (← scalar id)

/-- The content of a key, which must be a scalar. What is not a number equals only itself, unless it is
written as the word for this. -/
def key (id : Nat) : Build Scalar := do
  match ← item id with
  | .scalar (.float (.notANumber _)) =>
    let isWord := isNotANumberWord ((← wholeText id).map charOf)
    return .float (.notANumber (if isWord then none else some id))
  | .scalar value => return value
  | .collection _ => fail

/-! ## Mappings -/

/-- Removes the first entry that takes over other entries from a mapping; the result is where they are
to be found. -/
def removeMerge? (id : Nat) : Build (Option Nat) := do
  let node ← node id
  match ← entryTagged? .merge node.entries with
  | some (key, value) =>
    setNode id (node.withEntries (node.entries.erase (key, value)))
    return some value
  | none => return none

/-- Keys that stand for a whole mapping are texts in a mapping that is read entry by entry. -/
def nameDefaults (entries : List (Nat × Nat)) : Build Unit :=
  entries.forM fun (key, _) => do
    let node ← node key
    if node.tag = .default then setNode key (node.withTag .text)

/-- The entries of a mapping with those that it takes over in front, and no merge left. Of several
mappings to take over, the entries of the last come first, so that those of the first win. The fuel
bounds how many merges are left. -/
def flatten (taken : List (Nat × Nat)) : Nat → Nat → Build (List (Nat × Nat))
  | 0, _ => fail
  | fuel + 1, id => do
    let entriesOf (source : Nat) : Build (List (Nat × Nat)) := do
      match ← node source with
      | .mapping _ _ => flatten [] fuel source
      | _ => fail
    match ← removeMerge? id with
    | none =>
      let node ← node id
      nameDefaults node.entries
      setNode id (node.withEntries (taken ++ node.entries))
      return taken ++ node.entries
    | some source =>
      let more ←
        match ← node source with
        | .sequence _ items => do pure (← items.mapM entriesOf).reverse.flatten
        | _ => entriesOf source
      flatten (taken ++ more) fuel id

/-- The entries of a mapping without repeated keys. -/
def entries (id : Nat) : Build (List (Scalar × Item)) := do
  let entries ← flatten [] ((← get).graph.entryCount + 1) id
  return distinctEntries (← entries.mapM fun (k, value) => return (← key k, ← item value))

/-! ## Collections -/

/-- The only entry of a mapping. -/
def pair (id : Nat) : Build (Item × Item) := do
  match ← node id with
  | .mapping _ [(key, value)] => return (← item key, ← item value)
  | _ => fail

/-- The hashes of scalars that are no numbers in a run that gives them all the same one. -/
def runHash : Scalar → Int := fun _ => 0

/-- The parts of a collection. -/
def collection (id : Nat) : Build Collection := do
  let node ← node id
  match node.tag, node with
  | .sequence, .sequence _ items => return .sequence (← items.mapM item)
  | .mapping, .mapping _ _ => return .mapping (← entries id)
  | .set, .mapping _ _ => return .set (setOrder (Scalar.hash runHash) ((← entries id).map (·.1)))
  | .orderedMapping, .sequence _ items | .pairs, .sequence _ items =>
    return .pairs (← items.mapM pair)
  | _, _ => fail

/-- Gives the waiting collections their parts; the fuel bounds how many there are. -/
def finish : Nat → Build Unit
  | 0 => return
  | fuel + 1 => do
    match (← get).waiting with
    | [] => return
    | id :: rest =>
      modify fun s => { s with waiting := rest }
      let parts ← collection id
      modify fun s => { s with collections := s.collections.setIfInBounds id parts }
      finish fuel

end Build

/-! ## Documents -/

/-- The content of a node. -/
def Graph.content (graph : Graph) (root : Nat) : Except DocumentError Content := do
  let start : BuildState := { graph, collections := Array.replicate graph.size default }
  let (root, state) ← (do
    let root ← Build.item root
    Build.finish graph.size
    return root : Build Item).run start
  return ⟨state.collections, root⟩

/-- The content of the document in a text; without a document it is null. -/
def parse (text : String) : Except DocumentError Content := do
  match ← compose text with
  | some (graph, root) => graph.content root
  | none => return .ofScalar .null

end PropertyWrapper.Document
