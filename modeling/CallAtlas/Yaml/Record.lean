import CallAtlas.Yaml.Value

/-!
# Mappings as Records

A mapping is read as a record of named fields. No key may stand twice in a mapping.
A merge key takes in the fields of other mappings, after those that the mapping has
itself: a field that is already there stays.

An alias leads into the middle of a document, so a mapping may come to contain
itself. The aliases on the way are kept, and the way may use each of them once.

## Main definitions

* `Place`: A node with the aliases that led to it.
* `Place.resolve`: The node that an alias leads to.
* `Place.fields`: The fields of a mapping.
* `Place.text`, `Place.int`, `Place.bool`: Settings of the simple kinds.
-/

namespace CallAtlas

namespace Yaml

/-- A node with the aliases that led to it. -/
structure Place where
  node : Node
  way : List Nat := []
deriving Inhabited

namespace Place

/-- The node that an alias leads to. No anchor names an alias, so one step is
    enough. -/
def resolve (d : Document) (p : Place) : Except Problem Place :=
  match p.node with
  | .alias _ serial target =>
    if p.way.contains serial then .error .selfContaining
    else .ok { node := d.target target, way := serial :: p.way }
  | _ => .ok p

/-- The name that a key gives, or none for a key that is nothing. -/
def keyName (d : Document) (p : Place) : Except Problem (Option String) := do
  match (← p.resolve d).node with
  | .scalar tag s =>
    match ← Value.ofScalar tag s with
    | .null => .ok none
    | .text t => .ok (some t)
    | _ => .ok (some s)
  | _ => .error .wrongKind

/-- Whether a key asks to take in other mappings. -/
def isMerge : Node → Bool
  | .scalar tag s => s = "<<" && (tag = "" || tag = "!!merge")
  | _ => false

/-- Whether two keys of a mapping are the same as they stand. -/
def isSameKey : Node → Node → Bool
  | .scalar _ s, .scalar _ t => s = t
  | .sequence _, .sequence _ => true
  | .mapping _, .mapping _ => true
  | .alias s _ _, .alias t _ _ => s = t
  | _, _ => false

/-- Whether a key stands twice in a mapping. -/
def hasRepeatedKey : List (Node × Node) → Bool
  | [] => false
  | (k, _) :: rest => rest.any (fun e => isSameKey k e.1) || hasRepeatedKey rest

/-- The fields found so far, and the names that are taken. Outside a merge no names are
    taken, and a field that comes twice is refused. -/
structure Found where
  fields : List (String × Place) := []
  taken : Option (List String) := none
  own : List String := []

/-- Adds an entry of a mapping, if its name is one of the known. -/
def addEntry (known : List String) (f : Found) (name : String) (p : Place) :
    Except Problem Found :=
  if (f.taken.getD []).contains name then .ok f
  else
    let f := { f with taken := f.taken.map (name :: ·) }
    if !known.contains name then .ok f
    else if f.own.contains name then .error .repeatedKey
    else .ok { f with fields := f.fields ++ [(name, p)], own := name :: f.own }

/-- The names that the keys of a mapping give. -/
def ownNames (d : Document) (way : List Nat) (entries : List (Node × Node)) :
    Except Problem (List String) :=
  entries.foldlM (fun names e => do
    match ← keyName d { node := e.1, way } with
    | some n => .ok (n :: names)
    | none => .ok names) []

/-- The mappings that a merge key takes in. -/
def mergeSources (d : Document) (way : List Nat) (value : Node) : Except Problem (List Place) :=
  let source (n : Node) : Except Problem Place :=
    match n with
    | .mapping _ => .ok { node := n, way }
    | .alias _ _ target =>
      match d.target target with
      | .mapping _ => .ok { node := n, way }
      | _ => .error .wrongKind
    | _ => .error .wrongKind
  match value with
  | .sequence items => items.mapM source
  | n => (source n).map fun p => [p]

/-- Adds the fields of a mapping with known names, in at most `n` steps. -/
def addFields (d : Document) (known : List String) :
    (n : Nat) → Found → Place → Except Problem Found
  | 0, _, _ => .error .tooDeep
  | n + 1, f, p => do
    let p ← p.resolve d
    match p.node with
    | .mapping entries =>
      if hasRepeatedKey entries then .error .repeatedKey
      else
        let f ← entries.foldlM (fun f e => do
          if isMerge e.1 then .ok f
          else
            match ← keyName d { node := e.1, way := p.way } with
            | some name => addEntry known f name { node := e.2, way := p.way }
            | none => .ok f) { f with own := [] }
        match entries.reverse.find? fun e => isMerge e.1 with
        | none => .ok f
        | some (_, value) =>
          let taken ← match f.taken with
            | some names => .ok names
            | none => ownNames d p.way (entries.filter fun e => !isMerge e.1)
          let sources ← mergeSources d p.way value
          let merged ← sources.foldlM (fun f q => addFields d known n f q) { f with taken := some taken }
          .ok { merged with taken := if f.taken.isSome then merged.taken else none }
    | _ => .error .wrongKind

/-- The fields of a mapping with known names. Nothing has no fields. -/
def fields (d : Document) (known : List String) (p : Place) :
    Except Problem (List (String × Place)) := do
  let p ← p.resolve d
  match p.node with
  | .scalar tag s =>
    match ← Value.ofScalar tag s with
    | .null => .ok []
    | _ => .error .wrongKind
  | _ => (addFields d known (d.aliasCount + 1024) {} p).map Found.fields

/-- The value of a scalar with its text. -/
def scalar (d : Document) (p : Place) : Except Problem (Value × String) := do
  match (← p.resolve d).node with
  | .scalar tag s => (Value.ofScalar tag s).map fun v => (v, s)
  | _ => .error .wrongKind

/-- A setting that is a text. Nothing leaves it as it was. -/
def text (d : Document) (old : String) (p : Place) : Except Problem String := do
  match ← p.scalar d with
  | (.null, _) => .ok old
  | (.text t, _) => .ok t
  | (_, s) => .ok s

/-- A setting that is a whole number. Nothing leaves it as it was. -/
def int (d : Document) (old : Int) (p : Place) : Except Problem Int := do
  match ← p.scalar d with
  | (.null, _) => .ok old
  | (v, _) =>
    match v.toInt? with
    | some n => .ok n
    | none => .error .wrongKind

/-- A setting that is a truth value. Nothing leaves it as it was. -/
def bool (d : Document) (old : Bool) (p : Place) : Except Problem Bool := do
  match ← p.scalar d with
  | (.null, _) => .ok old
  | (v, _) =>
    match v.toBool? with
    | some b => .ok b
    | none => .error .wrongKind

end Place

end Yaml

end CallAtlas
