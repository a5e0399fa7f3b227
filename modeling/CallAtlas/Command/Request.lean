import CallAtlas.Command.Verb

/-!
# Requests

A command line is read into a request before anything is done: what is asked for,
with its own flags, and the flags that all requests share. A word no verb has is
noticed first, then bad flags, then a wrong number of arguments.

## Main definitions

* `Request`: What is asked for.
* `UsageError`: Why a command line cannot be read.
* `Request.read`: Reads a command line.
-/

namespace CallAtlas

namespace Command

/-- What is to be done. -/
inductive Action where
  | build
  | load (clean : Bool)
  | save (label : String) (full : Bool)
  | list
  | inspect (id : String)
  | remove (id : String)
  | help (about : Verb)
deriving DecidableEq

/-- What is asked for. -/
structure Request where
  settingsFile : String := "cgrefine.yaml"
  dir : String := ""
  metricsAddress : String := ""
  verbose : Bool := false
  action : Action
deriving DecidableEq

/-- Why a command line cannot be read. -/
inductive UsageError where
  | unknownWord (word : String) (after : Verb) (suggestions : List String)
  | wrongCount (wanted given : Nat)
  | flag (e : FlagError)
deriving DecidableEq

namespace UsageError

/-- Suggestions, each on a line of its own, if there are any. -/
def hint (suggestions : List String) : String :=
  if suggestions.isEmpty then ""
  else "\n\nDid you mean this?\n" ++ String.join (suggestions.map fun s => "\t" ++ s ++ "\n")

/-- What a caller is told. -/
def message : UsageError → String
  | unknownWord word after suggestions =>
    "unknown command " ++ Text.quoted word ++ " for " ++ Text.quoted after.path ++ hint suggestions
  | wrongCount wanted given =>
    "accepts " ++ toString wanted ++ " arg(s), received " ++ toString given
  | flag e => e.message

end UsageError

namespace Request

/-- The action of a verb with its flags and arguments. -/
def actionOf (v : Verb) (g : Given) : Except UsageError Action :=
  let alone (a : Action) : Except UsageError Action :=
    match g.arguments with
    | [] => .ok a
    | word :: _ => .error (.unknownWord word v [])
  let withId (a : String → Action) : Except UsageError Action :=
    match g.arguments with
    | [id] => .ok (a id)
    | args => .error (.wrongCount 1 args.length)
  if g.isOn Verb.helpFlag.name then .ok (.help v)
  else
    match v with
    | .root | .help => .ok (.help v)
    | .completion => alone (.help v)
    | .build => alone .build
    | .load => alone (.load (g.isOn "clean"))
    | .save => alone (.save (g.text "label" "") (g.isOn "full"))
    | .list => alone .list
    | .inspect => withId .inspect
    | .remove => withId .remove

/-- Reads a command line. -/
def read (args : List String) : Except UsageError Request :=
  let (v, rest) := Verb.find args
  match v, v.words rest with
  | .root, word :: _ => .error (.unknownWord word v (v.suggestions word))
  | _, _ =>
    match Given.read (v.ownFlags ++ Verb.sharedFlags ++ [Verb.helpFlag]) rest with
    | .error e => .error (.flag e)
    | .ok g =>
      (actionOf v g).map fun action =>
        { settingsFile := g.text "config" "cgrefine.yaml", dir := g.text "dir" ""
          metricsAddress := g.text "metrics-addr" "", verbose := g.isOn "verbose", action }

end Request

end Command

end CallAtlas
