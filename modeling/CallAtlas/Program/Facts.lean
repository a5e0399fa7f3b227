import CallAtlas.Refine.Field

/-!
# Loaded Programs

A program as its compiler leaves it: functions with their call instructions, the
methods that are called through interfaces with the types that implement them, the
named types, and the packages that were asked for. Functions, interface methods and
instructions are known by their positions in these lists.

Calls of functions that the language builds in are instructions, but no call sites.

## Main definitions

* `Origin`: Where a called value comes from.
* `Operation`, `Instruction`: Call instructions.
* `Function`: A function.
* `Program`: A loaded program.
* `Program.siteInstructions`: The instructions that are call sites.
* `Program.typeHierarchy`: The named types as a hierarchy.
-/

namespace CallAtlas

/-- A place in a source file. -/
structure SourcePosition where
  file : String
  line : Int
deriving DecidableEq, Inhabited

/-- Where a called value, or the receiver of a called method, comes from. -/
inductive Origin where
  /-- Loaded from a field by its address. -/
  | fieldLoad (type name : String)
  /-- Loaded from an element by its address. -/
  | elementLoad
  /-- Loaded from any other address. -/
  | otherLoad
  /-- Made by another operation on one value. -/
  | otherOperation
  /-- A field of a value. -/
  | field (type name : String)
  /-- An element of a value. -/
  | element
  /-- An entry of a map. -/
  | lookup
  | other
deriving DecidableEq, Inhabited

/-- The field that a value was read from, if it was read from memory. Elements count
    as one field. -/
def Origin.field? : Origin → Option Field
  | fieldLoad type name | field type name => some ⟨type, name⟩
  | elementLoad | element | lookup => some .arrayContents
  | otherLoad | otherOperation | other => none

/-- What a call instruction does. -/
inductive Operation where
  | makeClosure (function : Nat)
  | callStatic (function : Nat)
  | callBuiltin
  | callInterface (method : Nat) (receiver : Origin)
  | callValue (signature : String) (signatureClass : Nat) (value : Origin)
deriving DecidableEq, Inhabited

namespace Operation

/-- Whether an operation is a call site. -/
def isSite : Operation → Bool
  | callBuiltin => false
  | _ => true

/-- Whether an operation calls. -/
def isCall : Operation → Bool
  | makeClosure _ => false
  | _ => true

/-- Where the called value of an operation comes from. -/
def origin : Operation → Origin
  | callInterface _ o => o
  | callValue _ _ o => o
  | _ => .other

end Operation

/-- A call instruction. -/
structure Instruction where
  operation : Operation
  position : Option SourcePosition := none
deriving DecidableEq, Inhabited

/-- A function. -/
structure Function where
  /-- The name as the compiler prints it. -/
  label : String := ""
  name : String := ""
  signature : String := ""
  /-- Two functions share a class if their signatures are the same type. -/
  signatureClass : Nat := 0
  /-- The type of the receiver, if there is one. -/
  receiver : Option String := none
  /-- The name of that type without a pointer, if it has one. -/
  receiverName : Option String := none
  /-- The path of the package that holds the code. -/
  package : Option String := none
  /-- The declared object; a method and its wrappers share it. -/
  object : Option Nat := none
  /-- The path of the package that declares the object. -/
  objectPackage : Option String := none
  /-- The generic function that this one is an instance of. -/
  generic : Option Nat := none
  /-- The initializer of the package. -/
  initializer : Option Nat := none
  hasBody : Bool := false
  position : Option SourcePosition := none
  /-- Whether the function is known before it is first used. -/
  listed : Bool := false
  code : List Instruction := []
deriving DecidableEq, Inhabited

/-- A type that implements an interface, with the methods that do it for its values
    and for pointers to them. -/
structure Implementer where
  type : String
  byValue : Option Nat
  byPointer : Option Nat
deriving DecidableEq, Inhabited

/-- A method that is called through an interface. -/
structure InterfaceMethod where
  type : String
  name : String
  signature : String
  implementers : List Implementer
deriving DecidableEq, Inhabited

/-- A named type with the types that its values, and pointers to them, may be assigned
    to. -/
structure NamedType where
  name : String
  isInterface : Bool
  assignable : List String
  pointerAssignable : List String
deriving DecidableEq, Inhabited

/-- A function that a package declares. -/
structure FunctionMember where
  function : Nat
  declared : Bool
  exported : Bool
  isGeneric : Bool
deriving DecidableEq, Inhabited

/-- A type that a package declares, with its methods and whether they are exported. -/
structure TypeMember where
  exported : Bool
  isGeneric : Bool
  methods : List (Nat × Bool)
deriving DecidableEq, Inhabited

/-- A package that was asked for. -/
structure Package where
  path : String
  name : String
  main : Option Nat
  initializer : Option Nat
  functions : List FunctionMember
  types : List TypeMember
deriving DecidableEq, Inhabited

/-- A loaded program, with what variable type analysis finds out about it: the
    functions it looked at, and the callees of their instructions. -/
structure Program where
  loaded : List (String × String) := []
  functions : Array Function := #[]
  interfaceMethods : Array InterfaceMethod := #[]
  types : List NamedType := []
  packages : List Package := []
  analysed : List Nat := []
  callees : List (Nat × Nat × Nat) := []
deriving DecidableEq, Inhabited

namespace Program

/-- A function by its number. -/
def function (p : Program) (f : Nat) : Function := (p.functions[f]?).getD {}

/-- The instructions of a function that are call sites, with their positions in the
    code. -/
def siteInstructions (p : Program) (f : Nat) : List (Instruction × Nat) :=
  (p.function f).code.zipIdx.filter fun e => e.1.operation.isSite

/-- The instruction of a call site, with its position in the code. -/
def siteInstruction? (p : Program) (f : Nat) (pc : Int) : Option (Instruction × Nat) :=
  if pc < 0 then none else (p.siteInstructions f)[pc.toNat]?

/-- The path of the package of a function, over at most `n` generic functions. An
    instance without a package belongs to that of its generic function. -/
def packageUpTo (p : Program) : (n : Nat) → Nat → String
  | 0, _ => ""
  | n + 1, f =>
    let fn := p.function f
    match fn.package, fn.objectPackage, fn.generic with
    | some path, _, _ => path
    | none, some path, _ => path
    | none, none, some g => packageUpTo p n g
    | none, none, none => ""

/-- The path of the package of a function. -/
def packageOf (p : Program) (f : Nat) : String := p.packageUpTo (p.functions.size + 1) f

/-- A named type. -/
def type? (p : Program) (name : String) : Option NamedType := p.types.find? (·.name = name)

/-- The named types as a hierarchy: a type is below those to which its values, or
    pointers to them, may be assigned. -/
def typeHierarchy (p : Program) : TypeHierarchy where
  isLoaded name := (p.type? name).isSome
  isAssignable a b :=
    match p.type? a, p.type? b with
    | some t, some u =>
      t.assignable.contains u.name || (!t.isInterface && t.pointerAssignable.contains u.name)
    | _, _ => false

end Program

end CallAtlas
