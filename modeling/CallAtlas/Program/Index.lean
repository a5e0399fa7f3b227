import CallAtlas.Program.Facts
import CallAtlas.Reference
import CallAtlas.Table

/-!
# Indexed Functions

A function of a program gets a reference when it is indexed: the class is the type of
its receiver or else its package. Two functions may look alike in this, so a function
whose reference is taken is called by its full label instead.

Functions without a receiver are also found by the class of their signature.

## Main definitions

* `FunctionIndex`: The functions indexed so far.
* `FunctionIndex.add`: Indexes a function.
* `FunctionIndex.unit`: The unit of an indexed function.
-/

namespace CallAtlas

/-- The functions indexed so far. -/
structure FunctionIndex where
  refs : Table Nat MethodRef := .empty
  owners : Table MethodRef Nat := .empty
  bySignature : Table Nat (List Nat) := .empty

namespace FunctionIndex

/-- The reference of a function as it looks. -/
def naturalRef (p : Program) (f : Nat) : MethodRef :=
  let fn := p.function f
  { owner := fn.receiver.getD (p.packageOf f), name := fn.name, signature := fn.signature }

/-- The reference that a function gets: the natural one, with the label for a name if
    another function has it. -/
def chooseRef (p : Program) (ix : FunctionIndex) (f : Nat) : MethodRef :=
  let ref := naturalRef p f
  match ix.owners.find? ref with
  | some other => if other = f then ref else { ref with name := (p.function f).label }
  | none => ref

/-- Indexes a function, unless it is indexed. -/
def add (p : Program) (ix : FunctionIndex) (f : Nat) : FunctionIndex :=
  if ix.refs.contains f then ix
  else
    let ref := ix.chooseRef p f
    let fn := p.function f
    let alike := (ix.bySignature.find? fn.signatureClass).getD []
    { refs := ix.refs.insert f ref
      owners := ix.owners.insert ref f
      bySignature :=
        if fn.receiver.isSome then ix.bySignature
        else ix.bySignature.insert fn.signatureClass (alike ++ [f]) }

/-- The unit of an indexed function. -/
def unit (p : Program) (ix : FunctionIndex) (f : Nat) : CodeUnit :=
  .function f ((ix.refs.find? f).getD default) (p.function f).label

end FunctionIndex

namespace Program

/-- Puts functions into the order of their labels. -/
def inLabelOrder (p : Program) (fs : List Nat) : List Nat :=
  fs.mergeSort fun a b => (p.function a).label ≤ (p.function b).label

/-- The functions that are known before they are first used, in the order of their
    labels. -/
def listed (p : Program) : List Nat :=
  p.inLabelOrder ((List.range p.functions.size).filter fun f => (p.function f).listed)

/-- The index of a program before any function is used. -/
def startIndex (p : Program) : FunctionIndex := p.listed.foldl (FunctionIndex.add p) {}

end Program

end CallAtlas
