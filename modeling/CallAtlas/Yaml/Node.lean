import CallAtlas.Yaml.Scanner

/-!
# Nodes

The first document of a stream as a tree of nodes. What an anchor names can be used
again by an alias, also inside itself, so an alias keeps the number of the anchor and
the document keeps what the anchors name.

A scalar without content is the empty plain scalar, and a value that is left out is
one of these.

## Main definitions

* `Node`: A node.
* `Document`: A node with what the anchors in it name.
* `Document.read`: Reads the first document of a text.
-/

namespace CallAtlas

namespace Yaml

/-- A node. The tag of a scalar is empty for a plain scalar that has none, and that of
    strings for other scalars that have none. -/
inductive Node where
  | scalar (tag : String) (text : String)
  | sequence (items : List Node)
  | mapping (entries : List (Node × Node))
  | alias (name : String) (serial target : Nat)
deriving Inhabited

/-- The node of something that is left out. -/
def Node.missing : Node := .scalar "" ""

/-- The tag of strings. -/
def stringTag : String := "!!str"

/-- The stem of the tags that every document knows. -/
def commonStem : List Char := "tag:yaml.org,2002:".toList

/-- A tag in its short form. -/
def shortTag (tag : List Char) : String :=
  if tag.take commonStem.length = commonStem then
    "!!" ++ String.ofList (tag.drop commonStem.length)
  else String.ofList tag

/-- The state of composing: the tokens, the position reached, the tag handles, the
    anchors with their numbers, latest first, what finished anchors name, and the
    number of aliases. -/
structure Composer where
  scanner : Scanner
  position : Nat := 0
  handles : List (List Char × List Char) := []
  anchors : List (String × Nat) := []
  named : List (Nat × Node) := []
  anchorCount : Nat := 0
  aliasCount : Nat := 0
deriving Inhabited

/-- Composing changes the state and may fail. -/
abbrev Compose := StateT Composer (Except Problem)

namespace Compose

/-- The token at the position reached. -/
def peek : Compose Token := do
  let s ← get
  let scanner ← s.scanner.readyAt s.position (s.scanner.cursor.rest.length + 8)
  set { s with scanner }
  return (scanner.tokens[s.position]?).getD .streamEnd

/-- Past the token at the position reached. -/
def skip : Compose Unit := modify fun s => { s with position := s.position + 1 }

/-- What stands before the content of a node. -/
structure Properties where
  anchor : Option String := none
  tag : List Char := []

/-- The tag that a handle and a suffix stand for. -/
def tagOf (handle suffix : List Char) : Compose (List Char) := do
  if handle.isEmpty then return suffix
  else
    match (← get).handles.find? fun h => h.1 = handle with
    | some (_, stem) => if (stem ++ suffix).isEmpty then throw .badTag else return stem ++ suffix
    | none => throw .badTag

/-- The anchor and the tag of a node, in either order. -/
def properties : Compose Properties := do
  match ← peek with
  | .anchor name =>
    skip
    match ← peek with
    | .tag handle suffix =>
      skip
      return { anchor := some name, tag := ← tagOf handle suffix }
    | _ => return { anchor := some name }
  | .tag handle suffix =>
    skip
    match ← peek with
    | .anchor name =>
      skip
      return { anchor := some name, tag := ← tagOf handle suffix }
    | _ => return { tag := ← tagOf handle suffix }
  | _ => return {}

/-- Makes a node the one that an anchor names, from its beginning on. -/
def anchored (p : Properties) (content : Compose Node) : Compose Node := do
  match p.anchor with
  | none => content
  | some name =>
    let number := (← get).anchorCount
    modify fun s => { s with anchors := (name, number) :: s.anchors, anchorCount := number + 1 }
    let node ← content
    modify fun s => { s with named := (number, node) :: s.named }
    return node

/-- A scalar with the tag it is given. -/
def scalarNode (tag : List Char) (text : String) (plain : Bool) : Node :=
  if tag.isEmpty || tag = ['!'] then .scalar (if plain then "" else stringTag) text
  else .scalar (shortTag tag) text

/-- The node that an alias stands for. -/
def aliasNode (name : String) : Compose Node := do
  let s ← get
  match s.anchors.find? fun a => a.1 = name with
  | some (_, target) =>
    set { s with aliasCount := s.aliasCount + 1 }
    return .alias name s.aliasCount target
  | none => throw .unknownAnchor

/-- A node without content, which needs an anchor or a tag. -/
def missingOr (p : Properties) : Compose Node :=
  if p.anchor.isSome || !p.tag.isEmpty then anchored p (return scalarNode p.tag "" true)
  else throw .missingContent

mutual

/-- Composes a node, in at most `n` steps. -/
def node : (n : Nat) → (block indentless : Bool) → Compose Node
  | 0, _, _ => throw .tooDeep
  | n + 1, block, indentless => do
    match ← peek with
    | .alias name =>
      skip
      aliasNode name
    | _ =>
      let p ← properties
      match ← peek with
      | .blockEntry =>
        if indentless then anchored p (do return .sequence (← indentlessItems n []))
        else missingOr p
      | .scalar text plain =>
        skip
        anchored p (return scalarNode p.tag text plain)
      | .flowSequence =>
        skip
        anchored p (do return .sequence (← flowItems n true []))
      | .flowMapping =>
        skip
        anchored p (do return .mapping (← flowEntries n true []))
      | .blockSequence =>
        if block then
          skip
          anchored p (do return .sequence (← blockItems n []))
        else missingOr p
      | .blockMapping =>
        if block then
          skip
          anchored p (do return .mapping (← blockEntries n []))
        else missingOr p
      | _ => missingOr p

/-- The items of a block sequence after some. -/
def blockItems : (n : Nat) → List Node → Compose (List Node)
  | 0, _ => throw .tooDeep
  | n + 1, items => do
    match ← peek with
    | .blockEntry =>
      skip
      match ← peek with
      | .blockEntry | .blockEnd => blockItems n (.missing :: items)
      | _ =>
        let item ← node n true false
        blockItems n (item :: items)
    | .blockEnd =>
      skip
      return items.reverse
    | _ => throw .missingDelimiter

/-- The items of a block sequence at the column of the mapping around it, after
    some. -/
def indentlessItems : (n : Nat) → List Node → Compose (List Node)
  | 0, _ => throw .tooDeep
  | n + 1, items => do
    match ← peek with
    | .blockEntry =>
      skip
      match ← peek with
      | .blockEntry | .key | .value | .blockEnd => indentlessItems n (.missing :: items)
      | _ =>
        let item ← node n true false
        indentlessItems n (item :: items)
    | _ => return items.reverse

/-- The entries of a block mapping after some. -/
def blockEntries : (n : Nat) → List (Node × Node) → Compose (List (Node × Node))
  | 0, _ => throw .tooDeep
  | n + 1, entries => do
    match ← peek with
    | .key =>
      skip
      let key ← blockPart n
      let value ← match ← peek with
        | .value => do
          skip
          blockPart n
        | _ => pure .missing
      blockEntries n ((key, value) :: entries)
    | .blockEnd =>
      skip
      return entries.reverse
    | _ => throw .missingKey

/-- A key or value of a block mapping. -/
def blockPart : (n : Nat) → Compose Node
  | 0 => throw .tooDeep
  | n + 1 => do
    match ← peek with
    | .key | .value | .blockEnd => pure .missing
    | _ => node n true true

/-- The items of a flow sequence after some. -/
def flowItems : (n : Nat) → (first : Bool) → List Node → Compose (List Node)
  | 0, _, _ => throw .tooDeep
  | n + 1, first, items => do
    let t ← peek
    if t = .flowSequenceEnd then
      skip
      return items.reverse
    else
      if !first then
        if t = .flowEntry then skip else throw .missingDelimiter
      match ← peek with
      | .key =>
        skip
        let key ← match ← peek with
          | .value | .flowEntry | .flowSequenceEnd => do
            skip
            pure .missing
          | _ => node n false false
        let value ← match ← peek with
          | .value => do
            skip
            match ← peek with
            | .flowEntry | .flowSequenceEnd => pure .missing
            | _ => node n false false
          | _ => pure .missing
        flowItems n false (.mapping [(key, value)] :: items)
      | .flowSequenceEnd =>
        skip
        return items.reverse
      | _ =>
        let item ← node n false false
        flowItems n false (item :: items)

/-- The entries of a flow mapping after some. -/
def flowEntries : (n : Nat) → (first : Bool) → List (Node × Node) → Compose (List (Node × Node))
  | 0, _, _ => throw .tooDeep
  | n + 1, first, entries => do
    let t ← peek
    if t = .flowMappingEnd then
      skip
      return entries.reverse
    else
      if !first then
        if t = .flowEntry then skip else throw .missingDelimiter
      match ← peek with
      | .key =>
        skip
        let key ← match ← peek with
          | .value | .flowEntry | .flowMappingEnd => pure .missing
          | _ => node n false false
        let value ← match ← peek with
          | .value => do
            skip
            match ← peek with
            | .flowEntry | .flowMappingEnd => pure .missing
            | _ => node n false false
          | _ => pure .missing
        flowEntries n false ((key, value) :: entries)
      | .flowMappingEnd =>
        skip
        return entries.reverse
      | _ =>
        let key ← node n false false
        flowEntries n false ((key, .missing) :: entries)

end

/-- The tag handles that every document knows. -/
def commonHandles : List (List Char × List Char) := [(['!'], ['!']), (['!', '!'], commonStem)]

/-- The directives before a document. -/
def directives : (n : Nat) → (versionSeen : Bool) → List (List Char × List Char) → Compose Unit
  | 0, _, _ => throw .tooDeep
  | n + 1, versionSeen, handles => do
    match ← peek with
    | .version major minor =>
      if versionSeen || major ≠ 1 || minor ≠ 1 then throw .badDirective
      skip
      directives n true handles
    | .handle name stem =>
      if handles.any fun h => h.1 = name then throw .badDirective
      skip
      directives n versionSeen ((name, stem) :: handles)
    | _ => modify fun s => { s with handles := handles ++ commonHandles }

/-- The content of the first document, in at most `n` steps. -/
def document (n : Nat) : Compose (Option Node) := do
  let _ ← peek
  skip
  let root ← match ← peek with
    | .streamEnd => return none
    | .version .. | .handle .. | .documentStart => do
      directives n false []
      match ← peek with
      | .documentStart => skip
      | _ => throw .missingDocumentStart
      match ← peek with
      | .version .. | .handle .. | .documentStart | .documentEnd | .streamEnd => pure .missing
      | _ => node n true false
    | _ => do
      modify fun s => { s with handles := commonHandles }
      node n true false
  let _ ← peek
  return some root

end Compose

/-- A node with what the anchors in it name. -/
structure Document where
  root : Node
  named : List (Nat × Node)
  aliasCount : Nat
deriving Inhabited

/-- What an anchor names. -/
def Document.target (d : Document) (number : Nat) : Node :=
  ((d.named.find? fun a => a.1 = number).map Prod.snd).getD .missing

/-- Reads the first document of a text, if there is one. -/
def Document.read (text : String) : Except Problem (Option Document) :=
  match readable? text with
  | none => .error .controlCharacter
  | some cs =>
    let start : Composer := { scanner := { cursor := { rest := cs } } }
    ((Compose.document (8 * cs.length + 64)).run start).map fun (root, s) =>
      root.map fun root => { root, named := s.named, aliasCount := s.aliasCount }

end Yaml

end CallAtlas
