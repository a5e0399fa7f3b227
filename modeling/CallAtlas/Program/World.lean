import CallAtlas.Closure.Build
import CallAtlas.Program.Index
import CallAtlas.Project.Basic

/-!
# Programs as Hierarchies

A program answers the questions of the closure. The language has no classes: the
class of a method is its receiver type, that of a function is its package, and the
package initializer is the static initializer. A call through an interface may reach
the method of every type that implements it, and a call of a function value every
function with the same signature.

Functions are indexed when they are first used, and what a target of a call means is
known once a function that contains such a call has been read. The state of the
hierarchy is what is known so far.

## Main definitions

* `World`: What is known of a program so far.
* `World.unit`: The unit of a function.
* `World.callSites`: The call sites of a function.
* `World.overrides`: The units that a dispatching call may reach.
* `Program.hierarchy`: The program as a hierarchy.
* `Program.closureOf`: The closure of some functions of a program.
-/

namespace CallAtlas

/-- What is known of a program so far. -/
structure World where
  index : FunctionIndex := {}
  /-- The interface methods that targets stand for. -/
  interfaceTargets : Table MethodRef Nat := .empty
  /-- The signatures that targets stand for. -/
  valueTargets : Table MethodRef Nat := .empty
  /-- The call sites of the functions read. -/
  sites : Table Nat (List CallSite) := .empty
  /-- The answers for dispatching calls. -/
  overridden : Table MethodRef (List CodeUnit) := .empty

namespace World

/-- What is known before any function is read. -/
def start (p : Program) : World := { index := p.startIndex }

/-- The unit of a function, which is indexed if it was not. -/
def unit (p : Program) (f : Nat) : StateM World CodeUnit := do
  let w ← get
  let index := w.index.add p f
  set { w with index }
  return index.unit p f

/-- The target and kind of a call site. -/
def siteTarget (p : Program) : Operation → StateM World (MethodRef × Dispatch)
  | .makeClosure f => do
    return ((← unit p f).ref, .dynamic)
  | .callStatic f => do
    let kind := if (p.function f).receiver.isSome then .special else .static
    return ((← unit p f).ref, kind)
  | .callInterface m _ => do
    let method := (p.interfaceMethods[m]?).getD default
    let ref : MethodRef :=
      { owner := method.type, name := method.name, signature := method.signature }
    modify fun w => { w with interfaceTargets := w.interfaceTargets.insert ref m }
    return (ref, .interface)
  | .callValue signature signatureClass _ => do
    let ref : MethodRef := { name := "call", signature }
    modify fun w => { w with valueTargets := w.valueTargets.insert ref signatureClass }
    return (ref, .virtual)
  | .callBuiltin => return (default, .static)

/-- The call sites of some instructions, numbered from `pc`. -/
def readSites (p : Program) : (pc : Nat) → List (Instruction × Nat) → StateM World (List CallSite)
  | _, [] => return []
  | pc, (i, _) :: rest => do
    let (target, kind) ← siteTarget p i.operation
    let sites ← readSites p (pc + 1) rest
    return { pc, target, kind } :: sites

/-- The call sites of a function, which is read if it was not. -/
def callSites (p : Program) (f : Nat) : StateM World (List CallSite) := do
  match (← get).sites.find? f with
  | some sites => return sites
  | none =>
    let sites ← readSites p 0 (p.siteInstructions f)
    modify fun w => { w with sites := w.sites.insert f sites }
    return sites

/-- The unit that a reference belongs to. -/
def single (p : Program) (ref : MethodRef) : StateM World (Option CodeUnit) := do
  let w ← get
  return (w.index.owners.find? ref).map fun f => w.index.unit p f

/-- The methods by which types implement an interface method: that for values if there
    is one, and else that for pointers. -/
def implementations (m : InterfaceMethod) : List Nat :=
  m.implementers.filterMap fun i => i.byValue.orElse fun _ => i.byPointer

/-- The functions that a dispatching call may reach, as far as is known. -/
def candidates (p : Program) (w : World) (ref : MethodRef) : List Nat :=
  match w.interfaceTargets.find? ref with
  | some m => implementations ((p.interfaceMethods[m]?).getD default)
  | none =>
    match w.valueTargets.find? ref with
    | some c => (w.index.bySignature.find? c).getD []
    | none => []

/-- The units of some functions. -/
def units (p : Program) : List Nat → StateM World (List CodeUnit)
  | [] => return []
  | f :: fs => do
    let u ← unit p f
    let us ← units p fs
    return u :: us

/-- The units that a dispatching call may reach, in the order of their labels. An
    answer that was once given stays. -/
def overrides (p : Program) (ref : MethodRef) : StateM World (List CodeUnit) := do
  let w ← get
  match w.overridden.find? ref with
  | some us => return us
  | none =>
    let us ← units p (p.inLabelOrder (candidates p w ref))
    modify fun w => { w with overridden := w.overridden.insert ref us }
    return us

/-- The package initializer for a unit, if there is one that does anything. -/
def initializer (p : Program) (u : CodeUnit) : StateM World (Option CodeUnit) :=
  match u.function?.bind fun f =>
      if (p.function f).package.isSome then (p.function f).initializer else none with
  | some i => if (p.function i).hasBody then some <$> unit p i else return none
  | none => return none

/-- The function that a closure is made of at a site. -/
def wrapper (p : Program) (f : Nat) (pc : Int) : StateM World (Option CodeUnit) :=
  match p.siteInstruction? f pc with
  | some (⟨.makeClosure body, _⟩, _) => some <$> unit p body
  | _ => return none

end World

namespace Program

/-- Who declared a unit: the project, or someone else. -/
def loader (p : Program) (project : Project) (u : CodeUnit) : Loader :=
  match u.function? with
  | some f => if project.owns (p.packageOf f) then .application else .primordial
  | none => .primordial

/-- The program as a hierarchy. -/
def hierarchy (p : Program) (project : Project) : Hierarchy World where
  bound := p.functions.size
  single := World.single p
  overrides := World.overrides p
  isAbstract u := u.function?.any fun f => !(p.function f).hasBody
  loader := p.loader project
  initializer := World.initializer p
  callSites n :=
    match n.unit.function? with
    | some f => World.callSites p f
    | none => return []
  wrapper n site :=
    match n.unit.function? with
    | some f => World.wrapper p f site.pc
    | none => return none

/-- The closure of some functions of a program, and why it was cut short if it was. -/
def closureOf (p : Program) (project : Project) (starts : List Nat) (serial : Nat)
    (applicationOnly : Bool) (life : Lifetime) : Closure World × Option EndCause :=
  let (entrypoints, world) := (World.units p starts).run (World.start p)
  Closure.build (p.hierarchy project) world serial applicationOnly entrypoints life

end Program

end CallAtlas
