import PropertyWrapper.Document.Lexer
import PropertyWrapper.Document.Node

/-!
# Composing nodes from tokens

A text holds at most one document. An alias stands for the node that was anchored before it, which may
be a collection that the alias is inside of; a second anchor of one name is refused.
-/

namespace PropertyWrapper.Document

open Text

/-- How far tokens have been read. -/
structure ComposeState extends TokenStream where
  /-- What the handles of tags stand for. -/
  handles : List (String × String) := []
  /-- The nodes so far. -/
  graph : Graph := {}
  /-- The numbers of the anchored nodes. -/
  anchors : List (String × Nat) := []

/-- A step of the composition. -/
abbrev Compose := StateT ComposeState (Except DocumentError)

namespace Compose

/-- The tokens are no document. -/
def fail {α : Type} : Compose α := throw .malformed

/-- The next token; a fault of the text shows when it is reached. -/
def peek : Compose Token := do
  let s ← get
  match s.tokens, s.fault with
  | token :: _, _ => return token
  | [], none => return .streamEnd
  | [], some fault => throw fault

/-- Skips a token. -/
def advance : Compose Unit := modify fun s => { s with tokens := s.tokens.drop 1 }

/-- Whether the next token is one of some. -/
def nextIs (tokens : List Token) : Compose Bool := return tokens.contains (← peek)

/-- Skips a token if it comes next. -/
def accept (token : Token) : Compose Bool := do
  if (← peek) = token then
    advance
    return true
  else return false

/-- Skips a token that must come next. -/
def expect (token : Token) : Compose Unit := do
  if ← accept token then return else fail

/-! ## Properties of nodes -/

/-- An anchor, if one comes next. -/
def anchor? : Compose (Option String) := do
  match ← peek with
  | .anchor name =>
    advance
    return some name
  | _ => return none

/-- A tag with its handle, if one comes next. -/
def tag? : Compose (Option (Option String × String)) := do
  match ← peek with
  | .tag handle suffix =>
    advance
    return some (handle, suffix)
  | _ => return none

/-- The full name of a tag, whose handle must be known. -/
def fullName : Option String × String → Compose String
  | (none, suffix) => return suffix
  | (some handle, suffix) => do
    match (← get).handles.lookup handle with
    | some expansion => return expansion ++ suffix
    | none => fail

/-- An anchor and the full name of a tag, in either order. -/
def properties : Compose (Option String × Option String) := do
  let (anchor, tag) ←
    match ← anchor? with
    | some name => do pure (some name, ← tag?)
    | none => do
      match ← tag? with
      | some tag => pure (← anchor?, some tag)
      | none => pure (none, none)
  return (anchor, ← tag.mapM fullName)

/-- The tag of a scalar with the full name of its tag. The name `!` asks for the tag of its text, also
between quotes. -/
def scalarTag (name : Option String) (isPlain : Bool) (text : Points) : Tag :=
  match name with
  | none => if isPlain then .ofPlain (stringOf text) else .text
  | some name => if name = "!" then .ofPlain (stringOf text) else .named name

/-- The tag of a collection with the full name of its tag. -/
def collectionTag (name : Option String) (usual : Tag) : Tag :=
  match name with
  | none => usual
  | some name => if name = "!" then usual else .named name

/-- Whether an anchor is still free. -/
def isFree (anchor : Option String) : Compose Bool := do
  let s ← get
  return anchor.all fun name => (s.anchors.lookup name).isNone

/-- The number of the node that an alias stands for. -/
def anchored (name : String) : Compose Nat := do
  match (← get).anchors.lookup name with
  | some id => return id
  | none => fail

/-! ## Nodes -/

/-- Adds a node, for which an anchor may stand; the result is its number. -/
def add (anchor : Option String) (node : Node) : Compose Nat := do
  let s ← get
  let id := s.graph.size
  let anchors := anchor.elim s.anchors fun name => (name, id) :: s.anchors
  set { s with graph := s.graph.push node, anchors }
  return id

/-- Adds a node for what is left out. -/
def addEmpty : Compose Nat := add none .empty

/-- Adds a sequence with the items that are read behind its start. -/
def addSequence (anchor : Option String) (tag : Tag) (items : Compose (List Nat)) :
    Compose Nat := do
  let id ← add anchor (.sequence tag [])
  let items ← items
  modify fun s => { s with graph := s.graph.set id (.sequence tag items) }
  return id

/-- Adds a mapping with the entries that are read behind its start. -/
def addMapping (anchor : Option String) (tag : Tag) (entries : Compose (List (Nat × Nat))) :
    Compose Nat := do
  let id ← add anchor (.mapping tag [])
  let entries ← entries
  modify fun s => { s with graph := s.graph.set id (.mapping tag entries) }
  return id

/-- A node, unless one of some tokens comes next. -/
def nodeUnless (tokens : List Token) (node : Compose Nat) : Compose Nat := do
  if ← nextIs tokens then addEmpty else node

/-- The value of an entry behind its key; a missing one is empty. -/
def entryValue (ends : List Token) (node : Compose Nat) : Compose Nat := do
  if ← accept .value then nodeUnless ends node else addEmpty

mutual

/-- A node, which may be a block collection, or a sequence at the indentation of its parent. -/
def node (allowsBlock allowsFlat : Bool) : Nat → Compose Nat
  | 0 => fail
  | fuel + 1 => do
    match ← peek with
    | .alias name =>
      advance
      anchored name
    | _ =>
      let (anchor, tag) ← properties
      content allowsBlock allowsFlat anchor tag fuel

/-- A node behind its properties; without properties it must not be empty. -/
def content (allowsBlock allowsFlat : Bool) (anchor tag : Option String) : Nat → Compose Nat
  | 0 => fail
  | fuel + 1 => do
    let next ← peek
    unless ← isFree anchor do fail
    match next, allowsBlock, allowsFlat with
    | .scalar isPlain text, _, _ =>
      advance
      add anchor (.scalar (scalarTag tag isPlain text) text)
    | .flowSequenceStart, _, _ =>
      advance
      addSequence anchor (collectionTag tag .sequence) (flowItems true fuel)
    | .flowMappingStart, _, _ =>
      advance
      addMapping anchor (collectionTag tag .mapping) (flowEntries true fuel)
    | .blockSequenceStart, true, _ =>
      advance
      addSequence anchor (collectionTag tag .sequence) (blockItems fuel)
    | .blockMappingStart, true, _ =>
      advance
      addMapping anchor (collectionTag tag .mapping) (blockEntries fuel)
    | .blockEntry, _, true => addSequence anchor (collectionTag tag .sequence) (flatItems fuel)
    | _, _, _ =>
      if anchor.isSome || tag.isSome then add anchor (.scalar (scalarTag tag true []) []) else fail

/-- The items of a block sequence. -/
def blockItems : Nat → Compose (List Nat)
  | 0 => fail
  | fuel + 1 => do
    if ← accept .blockEntry then
      let item ← nodeUnless [.blockEntry, .blockEnd] (node true false fuel)
      return item :: (← blockItems fuel)
    else
      expect .blockEnd
      return []

/-- The items of a sequence at the indentation of its parent. -/
def flatItems : Nat → Compose (List Nat)
  | 0 => fail
  | fuel + 1 => do
    if ← accept .blockEntry then
      let item ← nodeUnless [.blockEntry, .key, .value, .blockEnd] (node true false fuel)
      return item :: (← flatItems fuel)
    else return []

/-- The entries of a block mapping. -/
def blockEntries : Nat → Compose (List (Nat × Nat))
  | 0 => fail
  | fuel + 1 => do
    if ← accept .key then
      let ends := [.key, .value, .blockEnd]
      let key ← nodeUnless ends (node true true fuel)
      let value ← entryValue ends (node true true fuel)
      return (key, value) :: (← blockEntries fuel)
    else
      expect .blockEnd
      return []

/-- The items of a flow sequence; a key starts a mapping of a single entry. -/
def flowItems (isFirst : Bool) : Nat → Compose (List Nat)
  | 0 => fail
  | fuel + 1 => do
    if ← accept .flowSequenceEnd then return []
    unless isFirst do expect .flowEntry
    if ← accept .key then
      let item ← addMapping none .mapping do
        let key ← nodeUnless [.value, .flowEntry, .flowSequenceEnd] (node false false fuel)
        let value ← entryValue [.flowEntry, .flowSequenceEnd] (node false false fuel)
        return [(key, value)]
      return item :: (← flowItems false fuel)
    else if ← accept .flowSequenceEnd then return []
    else
      let item ← node false false fuel
      return item :: (← flowItems false fuel)

/-- The entries of a flow mapping; a node alone is a key. -/
def flowEntries (isFirst : Bool) : Nat → Compose (List (Nat × Nat))
  | 0 => fail
  | fuel + 1 => do
    if ← accept .flowMappingEnd then return []
    unless isFirst do expect .flowEntry
    if ← accept .key then
      let key ← nodeUnless [.value, .flowEntry, .flowMappingEnd] (node false false fuel)
      let value ← entryValue [.flowEntry, .flowMappingEnd] (node false false fuel)
      return (key, value) :: (← flowEntries false fuel)
    else if ← accept .flowMappingEnd then return []
    else
      let key ← node false false fuel
      let value ← addEmpty
      return (key, value) :: (← flowEntries false fuel)

end

/-! ## Documents -/

/-- The handles of tags that need no declaration. -/
def usualHandles : List (String × String) := [("!", "!"), ("!!", Tag.commonStart)]

/-- The directives in front of a document: at most one version, which must be the first, and one
meaning for each handle. -/
def directives (hasVersion : Bool) (handles : List (String × String)) :
    Nat → Compose (List (String × String))
  | 0 => fail
  | fuel + 1 => do
    match ← peek with
    | .directive directive =>
      advance
      match directive with
      | .version major => if hasVersion || major ≠ 1 then fail else directives true handles fuel
      | .tagHandle handle expansion =>
        if (handles.lookup handle).isSome then fail
        else directives hasVersion ((handle, expansion) :: handles) fuel
      | .other => directives hasVersion handles fuel
    | _ => return handles

/-- Sets what the handles of tags stand for. -/
def useHandles (handles : List (String × String)) : Compose Unit :=
  modify fun s => { s with handles := handles ++ usualHandles }

/-- Skips marks at the end of a document. -/
def documentEnds : Nat → Compose Unit
  | 0 => return
  | fuel + 1 => do
    if ← accept .documentEnd then documentEnds fuel

/-- Whether a token starts or ends a document. -/
def isBoundary : Token → Bool
  | .directive _ | .documentStart | .documentEnd | .streamEnd => true
  | _ => false

/-- The end of the text. Another document is refused once its directives are read. -/
def finish (fuel : Nat) : Compose Unit := do
  unless ← accept .streamEnd do
    let _ ← directives false [] fuel
    fail

/-- The number of the root of the only document, if there is one. -/
def document (fuel : Nat) : Compose (Option Nat) := do
  if ← accept .streamEnd then return none
  let next ← peek
  let root ←
    if isBoundary next && next ≠ .documentEnd then do
      useHandles (← directives false [] fuel)
      expect .documentStart
      if isBoundary (← peek) then addEmpty else node true false fuel
    else do
      useHandles []
      node true false fuel
  documentEnds fuel
  finish fuel
  return some root

end Compose

/-- The nodes of the document in a text and the number of its root, if there is a document. -/
def compose (text : String) : Except DocumentError (Option (Graph × Nat)) := do
  let stream := TokenStream.ofText text
  let start : ComposeState := { stream with }
  let (root, state) ← (Compose.document (3 * stream.tokens.length + 3)).run start
  return root.map (state.graph, ·)

end PropertyWrapper.Document
