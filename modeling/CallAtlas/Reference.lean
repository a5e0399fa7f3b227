/-!
# References, Code Units and Call Sites

The vocabulary that every other module speaks. A call names a *method
reference*; a hierarchy answers with *code units*; a unit is analysed in a
*context*; and a *call site* is a program point that names one reference and
says how the callee is chosen there.

Two kinds of code unit exist. A unit known only by its reference is what a
stored graph gives back, and a unit of a loaded program also remembers which
function it stands for, so that two functions stay apart even if their
references were to agree. Likewise the context of a context-insensitive
analysis is not the same as a context that happens to bear its name.

## Main definitions

* `MethodRef`: The declared signature that a call names.
* `CodeUnit`: A piece of analysable code.
* `Context`: What tells several analyses of one unit apart.
* `Loader`: Who declared a unit.
* `Dispatch`: How a call site chooses its callees.
* `CallSite`: A program point that may invoke other units.
-/

namespace CallAtlas

/-- The declared signature that a call names: the declaring class or package,
    a name and a signature. -/
structure MethodRef where
  /-- The declaring class or package; empty if there is none. -/
  owner : String := ""
  name : String := ""
  signature : String := ""
deriving DecidableEq, Inhabited

namespace MethodRef

/-- The name as the owner qualifies it, with the signature behind. -/
def text (r : MethodRef) : String :=
  if r.owner = "" then r.name ++ r.signature
  else r.owner ++ "." ++ r.name ++ r.signature

end MethodRef

/-- A method-like piece of analysable code. -/
inductive CodeUnit where
  /-- A unit known by its reference alone. -/
  | named (ref : MethodRef)
  /-- The function numbered `index` of a loaded program, which prints as
      `label`. -/
  | function (index : Nat) (ref : MethodRef) (label : String)
deriving DecidableEq, Inhabited

namespace CodeUnit

/-- The reference under which a unit is called. -/
def ref : CodeUnit → MethodRef
  | named r => r
  | function _ r _ => r

/-- The printed form of a unit. -/
def text : CodeUnit → String
  | named r => r.text
  | function _ _ label => label

/-- The program function a unit stands for, if it stands for one. -/
def function? : CodeUnit → Option Nat
  | named _ => none
  | function i _ _ => some i

end CodeUnit

/-- What tells several analyses of one code unit apart. -/
inductive Context where
  /-- The one context of a context-insensitive analysis. -/
  | everywhere
  /-- A context known by its name alone. -/
  | named (name : String)
deriving DecidableEq, Inhabited

namespace Context

/-- The printed form of a context. -/
def text : Context → String
  | everywhere => "Everywhere"
  | named n => n

/-- The context that a stored name stands for. -/
def ofName (n : String) : Context :=
  if n = everywhere.text then everywhere else named n

@[simp] theorem text_ofName (n : String) : (ofName n).text = n := by
  unfold ofName
  split
  · next h => exact h.symm
  · rfl

end Context

/-- Who declared a code unit. Loaders other than the three known ones keep
    their name. -/
inductive Loader where
  | application
  | extension
  | primordial
  | other (name : String)
deriving DecidableEq, Inhabited

namespace Loader

/-- The name of a loader. -/
def text : Loader → String
  | application => "Application"
  | extension => "Extension"
  | primordial => "Primordial"
  | other n => n

/-- The loader of a given name. -/
def ofName (n : String) : Loader :=
  if n = "Application" then application
  else if n = "Extension" then extension
  else if n = "Primordial" then primordial
  else other n

end Loader

/-- How a call site chooses its callees. -/
inductive Dispatch where
  | static
  | special
  | virtual
  | interface
  /-- The site makes a function object and calls nothing itself. -/
  | dynamic
  /-- A kind beyond the five that have a name. -/
  | unnamed (code : UInt8)
deriving DecidableEq, Inhabited

namespace Dispatch

/-- The kinds that have a name, in the order of their codes. -/
def named : List Dispatch := [static, special, virtual, interface, dynamic]

/-- The kind with a given code. -/
def ofCode (c : UInt8) : Dispatch :=
  match named[c.toNat]? with
  | some d => d
  | none => unnamed c

/-- The code of a kind. -/
def code : Dispatch → UInt8
  | static => 0
  | special => 1
  | virtual => 2
  | interface => 3
  | dynamic => 4
  | unnamed c => c

/-- The printed form of a kind. -/
def text : Dispatch → String
  | static => "static"
  | special => "special"
  | virtual => "virtual"
  | interface => "interface"
  | dynamic => "dynamic"
  | unnamed c => "Dispatch(" ++ toString c.toNat ++ ")"

/-- The named kind that prints as `s`. -/
def ofName? (s : String) : Option Dispatch :=
  named.find? fun d => d.text == s

/-- Whether sites of this kind may reach several overriding units rather than
    at most one. -/
def isOverriding : Dispatch → Bool
  | virtual | interface => true
  | _ => false

theorem isOverriding_iff {d : Dispatch} : d.isOverriding ↔ d = virtual ∨ d = interface := by
  cases d with
  | virtual => simp [isOverriding]
  | interface => simp [isOverriding]
  | _ => simp [isOverriding]

end Dispatch

/-- A program point of a unit that may invoke other units. -/
structure CallSite where
  /-- The position of the site among the sites of its unit. -/
  pc : Int
  target : MethodRef
  kind : Dispatch
deriving DecidableEq, Inhabited

namespace CallSite

/-- The printed form of a call site. -/
def text (s : CallSite) : String :=
  s.kind.text ++ "@" ++ toString s.pc ++ " " ++ s.target.text

end CallSite

end CallAtlas
