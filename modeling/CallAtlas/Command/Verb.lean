import CallAtlas.Command.Flag

/-!
# Verbs

What the command line can be asked to do forms a small tree of words. The words that
choose a verb may be mixed with flags, so looking for them means telling the words
from the values of flags: a flag that is no known switch takes the argument after it.

A word that no verb has is answered with the words that come close: those it begins,
and those at most two edits away.

## Main definitions

* `Verb`: What can be asked for.
* `Verb.find`: The verb that arguments choose, and the arguments without its words.
* `Verb.suggestions`: The words close to an unknown one.
-/

namespace CallAtlas

namespace Command

/-- What can be asked for. -/
inductive Verb where
  | root
  | build
  | load
  | save
  | list
  | inspect
  | remove
  | help
  | completion
deriving DecidableEq

namespace Verb

/-- The word that chooses a verb. -/
def word : Verb → String
  | root => "cgrefine"
  | build => "build"
  | load => "export"
  | save => "snapshot"
  | list => "snapshots"
  | inspect => "show"
  | remove => "delete"
  | help => "help"
  | completion => "completion"

/-- The verbs that the next word can choose. -/
def children : Verb → List Verb
  | root => [build, load, save, list, help, completion]
  | list => [inspect, remove]
  | _ => []

/-- The words up to a verb. -/
def path (v : Verb) : String :=
  match v with
  | root => root.word
  | inspect | remove => root.word ++ " " ++ list.word ++ " " ++ v.word
  | _ => root.word ++ " " ++ v.word

/-- The flags that every verb has. -/
def sharedFlags : List Flag :=
  [{ name := "config", letter := some 'c' }, { name := "dir" },
   { name := "verbose", letter := some 'v', kind := .switch }, { name := "metrics-addr" }]

/-- The flags that a verb has of its own. -/
def ownFlags : Verb → List Flag
  | load => [{ name := "clean", kind := .switch }]
  | save => [{ name := "label" }, { name := "full", kind := .switch }]
  | _ => []

/-- The flag that asks for help. -/
def helpFlag : Flag := { name := "help", letter := some 'h', kind := .switch }

/-- Whether an argument is a flag that takes the one after it. -/
def takesNext (v : Verb) (s : String) : Bool :=
  let isSwitch (p : Flag → Bool) : Bool :=
    (v.ownFlags ++ sharedFlags).any fun f => p f && f.kind = .switch
  match s.toList with
  | '-' :: '-' :: name => !name.contains '=' && !isSwitch (·.name = String.ofList name)
  | ['-', c] => c ≠ '=' && c.toNat < 128 && !isSwitch (·.letter = some c)
  | _ => false

/-- The words among arguments. A flag that takes the last argument ends them. -/
def words (v : Verb) : List String → List String
  | [] => []
  | s :: rest =>
    if s = "--" then []
    else if v.takesNext s then
      match rest with
      | [] | [_] => []
      | _ :: after => words v after
    else if s = "" || s.front = '-' then words v rest
    else s :: words v rest

/-- Arguments without a word, where it first stands as one. -/
def withoutWord (v : Verb) (word : String) : List String → List String
  | [] => []
  | s :: rest =>
    if s = "--" then s :: rest
    else if v.takesNext s then
      match rest with
      | [] => [s]
      | value :: after => s :: value :: withoutWord v word after
    else if s = word then rest
    else s :: withoutWord v word rest

/-- Follows at most `n` words down the tree. -/
def findFrom : (n : Nat) → Verb → List String → Verb × List String
  | 0, v, args => (v, args)
  | n + 1, v, args =>
    match v.words args with
    | [] => (v, args)
    | word :: _ =>
      match v.children.find? (·.word = word) with
      | some child => findFrom n child (v.withoutWord word args)
      | none => (v, args)

/-- The verb that arguments choose, and the arguments without its words. The tree is
    two words deep. -/
def find (args : List String) : Verb × List String := findFrom 2 root args

/-- One row of the table of edit distances: the distances from a text that ends in `x`
    to ever longer texts, from those of the text without `x`. -/
def distanceRow (x : UInt8) : List UInt8 → (corner left : Nat) → (above : List Nat) → List Nat
  | y :: ys, corner, left, up :: above =>
    let d := if x = y then corner else 1 + min (min up left) corner
    d :: distanceRow x ys up d above
  | _, _, _, _ => []

/-- The number of octets to add, drop or change to get from one text to another. -/
def distance (s t : List UInt8) : Nat :=
  let start := List.range (t.length + 1)
  let row := s.foldl (fun row x =>
    match row with
    | [] => []
    | corner :: above => (corner + 1) :: distanceRow x t corner (corner + 1) above) start
  row.getLast?.getD 0

/-- The words close to an unknown one, whatever its case. -/
def suggestions (v : Verb) (typed : String) : List String :=
  let typed := typed.toLower
  let isClose (word : String) : Bool :=
    distance (Text.octets typed) (Text.octets word) ≤ 2 || word.startsWith typed
  ((v.children.filter (· ≠ help)).map word).filter isClose

end Verb

end Command

end CallAtlas
