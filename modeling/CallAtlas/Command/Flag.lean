import CallAtlas.Table
import CallAtlas.Text.Octets
import CallAtlas.Text.Quoted

/-!
# Flags

A flag has a long name, maybe a letter, and either takes a text or is switched. Long
flags are written `--name text` or `--name=text`; letters are written `-n text`,
`-ntext` or `-n=text`, and letters of switches can be run together. A switch never
takes the argument after it. Flags and other arguments may be mixed, and `--` ends
the flags.

## Main definitions

* `Flag`: A flag.
* `FlagError`: What is wrong with the flags that were given.
* `Given`: Flags with their values, and the other arguments.
* `Given.read`: Reads arguments.
-/

namespace CallAtlas

namespace Command

/-- What a flag is set to. -/
inductive FlagKind where
  | text
  | switch
deriving DecidableEq

/-- A flag. -/
structure Flag where
  name : String
  letter : Option Char := none
  kind : FlagKind := .text
deriving DecidableEq

namespace Flag

/-- How a flag is named when its value is bad. -/
def title (f : Flag) : String :=
  match f.letter with
  | some c => "-" ++ String.singleton c ++ ", --" ++ f.name
  | none => "--" ++ f.name

end Flag

/-- What is wrong with the flags that were given. -/
inductive FlagError where
  | badForm (argument : String)
  | unknownName (name : String)
  | unknownLetter (letter : Char) (letters : String)
  | nameNeedsValue (name : String)
  | letterNeedsValue (letter : Char) (letters : String)
  | badSwitch (flag : Flag) (value : String)
deriving DecidableEq

namespace FlagError

/-- What a caller is told. -/
def message : FlagError → String
  | badForm argument => "bad flag syntax: " ++ argument
  | unknownName name => "unknown flag: --" ++ name
  | unknownLetter c letters =>
    "unknown shorthand flag: " ++ Text.quotedAlone c ++ " in -" ++ letters
  | nameNeedsValue name => "flag needs an argument: --" ++ name
  | letterNeedsValue c letters =>
    "flag needs an argument: " ++ Text.quotedAlone c ++ " in -" ++ letters
  | badSwitch flag value =>
    "invalid argument " ++ Text.quoted value ++ " for " ++ Text.quoted flag.title ++
      " flag: strconv.ParseBool: parsing " ++ Text.quoted value ++ ": invalid syntax"

end FlagError

/-- The position of a switch. -/
def switchValue? (s : String) : Option Bool :=
  if ["1", "t", "T", "TRUE", "true", "True"].contains s then some true
  else if ["0", "f", "F", "FALSE", "false", "False"].contains s then some false
  else none

/-- Flags with their values, and the other arguments in order. -/
structure Given where
  values : Table String String := .empty
  arguments : List String := []
deriving DecidableEq

namespace Given

/-- Sets a flag. -/
def set (g : Given) (f : Flag) (value : String) : Except FlagError Given :=
  if f.kind = .switch ∧ switchValue? value = none then .error (.badSwitch f value)
  else .ok { g with values := g.values.insert f.name value }

/-- Adds an argument that is no flag. -/
def push (g : Given) (argument : String) : Given :=
  { g with arguments := g.arguments ++ [argument] }

/-- The text that a flag is set to. -/
def text (g : Given) (name default : String) : String := (g.values.find? name).getD default

/-- Whether a switch is on. -/
def isOn (g : Given) (name : String) : Bool :=
  ((g.values.find? name).bind switchValue?).getD false

/-- Reads a long flag, given without its two dashes. Gives whether it took the
    argument after it. -/
def readName (flags : List Flag) (next : Option String) (cs : List Char) (g : Given) :
    Except FlagError (Given × Bool) :=
  if cs.head? = some '-' || cs.head? = some '=' then .error (.badForm ("--" ++ String.ofList cs))
  else
    let name := String.ofList (cs.takeWhile (· ≠ '='))
    match flags.find? (·.name = name) with
    | none => .error (.unknownName name)
    | some f =>
      match cs.dropWhile (· ≠ '='), f.kind, next with
      | _ :: value, _, _ => (g.set f (String.ofList value)).map (·, false)
      | [], .switch, _ => (g.set f "true").map (·, false)
      | [], .text, some value => (g.set f value).map (·, true)
      | [], .text, none => .error (.nameNeedsValue name)

/-- The character that stands for a letter no flag has: the one with the number of its
    first octet. -/
def strangeLetter (c : Char) : Char :=
  ((Text.octets (String.singleton c)).head?.map fun b => Char.ofNat b.toNat).getD c

/-- Reads letters, given without their dash. Gives whether the last of them took the
    argument after it. -/
def readLetters (flags : List Flag) (next : Option String) :
    List Char → Given → Except FlagError (Given × Bool)
  | [], g => .ok (g, false)
  | c :: cs, g =>
    match flags.find? (·.letter = some c) with
    | none => .error (.unknownLetter (strangeLetter c) (String.ofList (c :: cs)))
    | some f =>
      match cs, f.kind with
      | '=' :: v :: vs, _ => (g.set f (String.ofList (v :: vs))).map (·, false)
      | _, .switch =>
        match g.set f "true" with
        | .error e => .error e
        | .ok g => readLetters flags next cs g
      | v :: vs, .text => (g.set f (String.ofList (v :: vs))).map (·, false)
      | [], .text =>
        match next with
        | some value => (g.set f value).map (·, true)
        | none => .error (.letterNeedsValue c (String.singleton c))

/-- Reads arguments. A dash alone is no flag. -/
def readFrom (flags : List Flag) : List String → Given → Except FlagError Given
  | [], g => .ok g
  | s :: rest, g =>
    let go (read : Except FlagError (Given × Bool)) : Except FlagError Given :=
      match read, rest with
      | .error e, _ => .error e
      | .ok (g, true), _ :: after => readFrom flags after g
      | .ok (g, _), rest => readFrom flags rest g
    match s.toList with
    | ['-', '-'] => .ok { g with arguments := g.arguments ++ rest }
    | '-' :: '-' :: cs => go (readName flags rest.head? cs g)
    | '-' :: c :: cs => go (readLetters flags rest.head? (c :: cs) g)
    | _ => readFrom flags rest (g.push s)

/-- Reads all arguments. -/
def read (flags : List Flag) (args : List String) : Except FlagError Given :=
  readFrom flags args {}

end Given

end Command

end CallAtlas
