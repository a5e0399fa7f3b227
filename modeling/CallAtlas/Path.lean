import CallAtlas.Text.Search

/-!
# Paths

A path is read once, and then it is clean: no empty step, no step that stays, and
no step up but at the front of a path that does not start at the root. Two clean
paths that lead to the same place have the same steps, so they are compared and
related step by step.

## Main definitions

* `Path`: A clean path.
* `Path.parse`: Reads a path.
* `Path.text`: Writes a path.
* `Path.stepsFrom`: The way from one path to another.
-/

namespace CallAtlas

/-- A clean path: where it starts and the steps it takes. -/
structure Path where
  rooted : Bool
  steps : List (List Char)
deriving DecidableEq, Inhabited

namespace Path

/-- The step that leads up. -/
def up : List Char := ['.', '.']

/-- Adds a step to a clean path, whose steps are given last first. At the root there
    is no way up. -/
def extend (rooted : Bool) (stepsBack : List (List Char)) (step : List Char) : List (List Char) :=
  if step = [] || step = ['.'] then stepsBack
  else if step = up then
    match stepsBack with
    | [] => if rooted then [] else [up]
    | last :: before => if last = up then up :: stepsBack else before
  else step :: stepsBack

/-- Reads a path. -/
def parse (cs : List Char) : Path :=
  let rooted := cs.head? = some '/'
  { rooted, steps := ((Text.pieces '/' cs).foldl (extend rooted) []).reverse }

/-- Steps with a slash between each two. -/
def joined : List (List Char) → List Char
  | [] => []
  | [step] => step
  | step :: rest => step ++ '/' :: joined rest

/-- Writes a path. -/
def text (p : Path) : List Char :=
  if p.rooted then '/' :: joined p.steps
  else if p.steps.isEmpty then ['.'] else joined p.steps

/-- Drops the steps that two lists begin with in common. -/
def afterCommon : List (List Char) → List (List Char) → List (List Char) × List (List Char)
  | b :: bs, t :: ts => if b = t then afterCommon bs ts else (b :: bs, t :: ts)
  | bs, ts => (bs, ts)

/-- The steps from one path to another, unless there is no telling them: one starts at
    the root and the other does not, or the way back up leads through an unknown
    place. -/
def stepsFrom? (base target : Path) : Option (List (List Char)) :=
  if base.rooted ≠ target.rooted then none
  else
    match afterCommon base.steps target.steps with
    | (back, on) => if back.head? = some up then none else some (back.map (fun _ => up) ++ on)

/-- The way from one path to another as it is written. -/
def way? (base target : Path) : Option (List Char) :=
  (stepsFrom? base target).map fun s => if s.isEmpty then ['.'] else joined s

/-- A path seen from a directory: itself if it starts at the root. -/
def within (dir p : Path) : Path :=
  if p.rooted then p
  else { dir with steps := (p.steps.foldl (extend dir.rooted) dir.steps.reverse).reverse }

end Path

end CallAtlas
