import CallAtlas.Node

/-!
# Hierarchies

What the closure has to know of a program: which units a call may reach, which
units there are reasons to leave out, which initializer a class has, and which
call sites a unit contains. A hierarchy may find its answers as it goes, so an
answer may change the state `σ` of the hierarchy; a hierarchy with nothing to
remember takes `σ` to be `Unit`.

A hierarchy knows how many units it can ever answer with. The closure makes at
most one node for each, and this is what bounds its run.

## Main definitions

* `Hierarchy`: The questions, with their answers.
* `Question`: A question as the closure asked it.
-/

namespace CallAtlas

/-- What the closure has to know of a program. -/
structure Hierarchy (σ : Type) where
  /-- At least the number of distinct units among all answers. -/
  bound : Nat
  /-- The unit that a call without dispatch invokes. -/
  single : MethodRef → StateM σ (Option CodeUnit)
  /-- The units that may override the target of a dispatching call. -/
  overrides : MethodRef → StateM σ (List CodeUnit)
  /-- Whether a unit has no code of its own. -/
  isAbstract : CodeUnit → Bool
  /-- Who declared a unit. -/
  loader : CodeUnit → Loader
  /-- The static initializer of the class that declares a unit. -/
  initializer : CodeUnit → StateM σ (Option CodeUnit)
  /-- The call sites in the code of a node. -/
  callSites : Node → StateM σ (List CallSite)
  /-- The unit that stands for the function object made at a site. -/
  wrapper : Node → CallSite → StateM σ (Option CodeUnit)

/-- A question as the closure asked it. -/
inductive Question where
  | single (target : MethodRef)
  | overrides (target : MethodRef)
  | initializer (unit : CodeUnit)
  | callSites (node : Node)
  | wrapper (node : Node) (site : CallSite)
deriving DecidableEq

namespace Question

/-- The printed form of a question. -/
def text : Question → String
  | single t => "single " ++ t.text
  | overrides t => "virtual " ++ t.text
  | initializer u => "clinit " ++ u.text
  | callSites n => "sites " ++ n.text
  | wrapper n s => "wrapper " ++ n.text ++ " " ++ s.text

end Question

end CallAtlas
