import PlanningAgents.Node.Document
import PlanningAgents.SortedMap
import PlanningAgents.Yaml.Lexer
import PlanningAgents.Yaml.Scalar

/-!
# PlanningAgents.Yaml.Reader

Structured data from the tokens of a YAML text.  A text holds one document, which may be empty.

An anchored node gets a number, which is how many other names have been anchored before it.  When a
name is anchored again, its node therefore shares its number with that of the next new name, and
both names stand for the later one of the two nodes.
-/

namespace PlanningAgents.Yaml

/-- What is left to read, and what is known so far. -/
structure ReaderState where
  tokens : List Token
  /-- What the handles of tags stand for. -/
  handles : List (String × List UInt8) := []
  /-- The numbers of the names that have been anchored. -/
  names : SortedMap String Nat := .empty
  /-- The anchored nodes with their numbers, in the order in which they begin. -/
  numbered : Array (Nat × Node) := #[]

/-- A reading of tokens, which may fail. -/
abbrev Reading := StateT ReaderState Option

namespace Reading

/-- The next token. -/
def peek : Reading Token := do return ((← get).tokens.head?).getD .streamEnd

/-- Moves past the next token. -/
def skip : Reading Unit := modify fun s => { s with tokens := s.tokens.drop 1 }

/-- Whether the next token is one of those given. -/
def atAny (ts : List Token) : Reading Bool := do return ts.contains (← peek)

/-- Moves past the next token, which has to be `t`. -/
def expect (t : Token) : Reading Unit := do
  if (← peek) = t then skip else failure

/-- The node that stands for the one that a name has been anchored to. -/
def refer (name : String) : Reading Node := do
  let number ← (← get).names[name]?
  return .reference number

/-- Gives a node its number before it is read; tells its place among the numbered nodes. -/
def openAnchor (anchor : Option String) : Reading Nat := do
  let s ← get
  if let some name := anchor then
    let number := s.names.size
    set { s with
      names := s.names.insert name number
      numbered := s.numbered.push (number, .unreadable) }
  return s.numbered.size

/-- Stores a numbered node in its place. -/
def closeAnchor (anchor : Option String) (place : Nat) (n : Node) : Reading Node := do
  if anchor.isSome then
    modify fun s => { s with numbered := s.numbered.modify place fun e => (e.1, n) }
  return n

/-- The full tag that a handle and a suffix stand for. -/
def resolve (handle : String) (suffix : List UInt8) : Reading (List UInt8) := do
  if handle = "" then return suffix
  match ((← get).handles ++ [("!", "!".toUTF8.toList), ("!!", knownTag "")]).lookup handle with
  | some expansion => return expansion ++ suffix
  | none => failure

/-- Reads an anchor and a tag, of which each may be missing, in either order. -/
def properties : Reading (Option String × Option (String × List UInt8)) := do
  match ← peek with
  | .anchor name =>
    skip
    match ← peek with
    | .tag handle suffix => skip; return (some name, some (handle, suffix))
    | _ => return (some name, none)
  | .tag handle suffix =>
    skip
    match ← peek with
    | .anchor name => skip; return (some name, some (handle, suffix))
    | _ => return (none, some (handle, suffix))
  | _ => return (none, none)

/-- A value that is not written at all. -/
def blank : Node := .scalar (scalar .plain none "")

mutual

/-- Reads a node.  Blocks are read only where `inBlock` allows them; where `flush` does, a list may
stand at the indentation of the record that it belongs to. -/
def node (inBlock flush : Bool) : Nat → Reading Node
  | 0 => failure
  | fuel + 1 => do
    if let .reference name ← peek then
      skip
      return ← refer name
    let (anchor, written) ← properties
    let tag ← written.mapM fun t => resolve t.1 t.2
    let place ← openAnchor anchor
    match ← peek with
    | .text style s =>
      skip
      closeAnchor anchor place (mark tag (.scalar (scalar style tag s)))
    | .flowListStart =>
      skip
      closeAnchor anchor place (mark tag (.list false (← flowItems true fuel)))
    | .flowRecordStart =>
      skip
      closeAnchor anchor place (mark tag (.record (← flowMembers true fuel)))
    | t =>
      if flush && t = .blockEntry then
        closeAnchor anchor place (mark tag (.list false (← flushItems fuel)))
      else if inBlock && t = .blockListStart then
        skip
        closeAnchor anchor place (mark tag (.list false (← blockItems fuel)))
      else if inBlock && t = .blockRecordStart then
        skip
        closeAnchor anchor place (mark tag (.record (← blockMembers fuel)))
      else if anchor.isSome || tag.isSome then
        closeAnchor anchor place (mark tag (.scalar (scalar .plain tag "")))
      else failure

/-- Reads the items of a block up to its end. -/
def blockItems : Nat → Reading (List Node)
  | 0 => failure
  | fuel + 1 => do
    match ← peek with
    | .blockEntry =>
      skip
      let item ← if ← atAny [.blockEntry, .blockEnd] then pure blank else node true false fuel
      return item :: (← blockItems fuel)
    | .blockEnd => skip; return []
    | _ => failure

/-- Reads the items of a list that stands at the indentation of its record. -/
def flushItems : Nat → Reading (List Node)
  | 0 => failure
  | fuel + 1 => do
    match ← peek with
    | .blockEntry =>
      skip
      let item ← if ← atAny [.blockEntry, .key, .value, .blockEnd] then pure blank
        else node true false fuel
      return item :: (← flushItems fuel)
    | _ => return []

/-- Reads the members of a block up to its end. -/
def blockMembers : Nat → Reading (List (Node × Node))
  | 0 => failure
  | fuel + 1 => do
    match ← peek with
    | .key =>
      skip
      let key ← blockPart fuel
      let value ←
        if (← peek) = .value then
          skip
          blockPart fuel
        else pure blank
      return (key, value) :: (← blockMembers fuel)
    | .blockEnd => skip; return []
    | _ => failure

/-- Reads a key or a value of a block. -/
def blockPart : Nat → Reading Node
  | 0 => failure
  | fuel + 1 => do
    if ← atAny [.key, .value, .blockEnd] then return blank
    node true true fuel

/-- Reads the items of a list in brackets up to its end. -/
def flowItems (isFirst : Bool) : Nat → Reading (List Node)
  | 0 => failure
  | fuel + 1 => do
    if !isFirst && (← peek) ≠ .flowListEnd then expect .flowEntry
    match ← peek with
    | .flowListEnd => skip; return []
    | .key =>
      skip
      let pair ← flowPair fuel
      return .record [pair] :: (← flowItems false fuel)
    | _ => return (← node false false fuel) :: (← flowItems false fuel)

/-- Reads a key with its value that stand for a record among the items of a list. -/
def flowPair : Nat → Reading (Node × Node)
  | 0 => failure
  | fuel + 1 => do
    let key ←
      if ← atAny [.value, .flowEntry, .flowListEnd] then
        skip
        pure blank
      else node false false fuel
    if (← peek) ≠ .value then return (key, blank)
    skip
    if ← atAny [.flowEntry, .flowListEnd] then return (key, blank)
    return (key, ← node false false fuel)

/-- Reads the members of a record in braces up to its end. -/
def flowMembers (isFirst : Bool) : Nat → Reading (List (Node × Node))
  | 0 => failure
  | fuel + 1 => do
    if !isFirst && (← peek) ≠ .flowRecordEnd then expect .flowEntry
    match ← peek with
    | .flowRecordEnd => skip; return []
    | .key =>
      skip
      let key ← if ← atAny [.value, .flowEntry, .flowRecordEnd] then pure blank
        else node false false fuel
      let value ←
        if (← peek) = .value then
          skip
          if ← atAny [.flowEntry, .flowRecordEnd] then pure blank else node false false fuel
        else pure blank
      return (key, value) :: (← flowMembers false fuel)
    | _ =>
      let key ← node false false fuel
      return (key, blank) :: (← flowMembers false fuel)

end

/-- Reads the directives before a document.  There is at most one version, which has to be known,
and no handle is told twice. -/
def directives (versioned : Bool) : Nat → Reading Unit
  | 0 => failure
  | fuel + 1 => do
    match ← peek with
    | .version major minor =>
      if versioned || major ≠ 1 || (minor ≠ 1 && minor ≠ 2) then failure
      skip
      directives true fuel
    | .handle name expansion =>
      let s ← get
      if (s.handles.lookup name).isSome then failure
      set { s with handles := (name, expansion) :: s.handles }
      skip
      directives versioned fuel
    | _ => return

/-- Whether a token can only stand outside of documents. -/
def isOutside : Token → Bool
  | .version .. | .handle .. | .documentStart | .documentEnd | .streamEnd => true
  | _ => false

/-- Skips the ends of documents. -/
def skipEnds : Nat → Reading Unit
  | 0 => failure
  | fuel + 1 => do
    if (← peek) = .documentEnd then
      skip
      skipEnds fuel

/-- Reads the one document of a text. -/
def document (fuel : Nat) : Reading Document := do
  let first ← peek
  if first = .streamEnd then return { root := .nothing }
  let root ←
    if isOutside first && first ≠ .documentEnd then
      directives false fuel
      expect .documentStart
      if isOutside (← peek) then pure blank else node true false fuel
    else node true false fuel
  skipEnds fuel
  expect .streamEnd
  return { root, numbered := (← get).numbered.toList.reverse }

end Reading

/-- Reads a text.  Every token takes at most three calls. -/
def read (s : String) : Option Document := do
  let tokens ← tokens? s
  (Reading.document (3 * tokens.length + 3)).run' { tokens }

end PlanningAgents.Yaml
