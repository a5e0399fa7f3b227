import CallAtlas.Export.Load
import CallAtlas.Program.World

/-!
# Entrypoints and Descriptions

Where the analysis of a program starts, and what an exported model says about its
functions. An executable starts at the main function and the initializer of its main
packages. A library starts at everything it exports.

## Main definitions

* `Program.entrypoints`: The functions where the analysis starts.
* `Program.projectPackages`: The rows of the project's packages.
* `Program.describer`: What is known about the source.
-/

namespace CallAtlas

namespace Program

/-- The main functions and initializers of the project's main packages. -/
def mainFunctions (p : Program) (project : Project) : List Nat :=
  (p.packages.filter fun k => k.name = "main" && k.main.isSome && project.owns k.path).flatMap
    fun k => k.main.toList ++ k.initializer.toList

/-- The functions and methods that a package exports. Generic ones have no code of
    their own. -/
def exportedBy (k : Package) : List Nat :=
  ((k.functions.filter fun m => m.declared && m.exported && !m.isGeneric).map (·.function)) ++
    (k.types.filter fun t => t.exported && !t.isGeneric).flatMap fun t =>
      (t.methods.filter Prod.snd).map Prod.fst

/-- The functions where the analysis starts. -/
def entrypoints (p : Program) (project : Project) : List Nat :=
  match p.mainFunctions project with
  | [] => p.inLabelOrder ((p.packages.filter fun k => project.owns k.path).flatMap exportedBy)
  | fs => fs

/-- The rows of the project's packages, in the order of their paths. -/
def projectPackages (p : Program) (project : Project) : List PackageRow :=
  let rows := (p.loaded.filter fun k => project.owns k.1).foldl (fun (t : Table String PackageRow) k =>
    t.insert k.1 ⟨k.1, k.2, project.shorten k.1⟩) .empty
  rows.values.mergeSort fun a b => a.path ≤ b.path

/-- The name of a function with its package, and with its type if it is a method. -/
def qualifiedName (p : Program) (f : Nat) : String :=
  let fn := p.function f
  match fn.package, fn.receiverName with
  | none, _ => fn.label
  | some path, some type => path ++ "." ++ type ++ "." ++ fn.name
  | some path, none => path ++ "." ++ fn.name

/-- What is known about the source of a unit. -/
def describe (p : Program) (project : Project) (u : CodeUnit) : UnitInfo :=
  match u.function? with
  | none =>
    { name := u.ref.name, fullName := u.text, package := u.ref.owner, file := "", line := 0
      loader := (p.loader project u).text }
  | some f =>
    let fn := p.function f
    { name := fn.name, fullName := p.qualifiedName f, package := p.packageOf f
      file := project.shorten ((fn.position.map (·.file)).getD "")
      line := (fn.position.map (·.line)).getD 0
      loader := (p.loader project u).text }

/-- The position of a call site. -/
def sitePosition? (p : Program) (u : CodeUnit) (pc : Int) : Option SourcePosition :=
  u.function?.bind fun f => (p.siteInstruction? f pc).bind fun e => e.1.position

/-- File and line of a call site. -/
def siteLabel (p : Program) (project : Project) (u : CodeUnit) (pc : Int) : String :=
  match p.sitePosition? u pc with
  | some at_ => if at_.line > 0 then project.shorten at_.file ++ ":" ++ toString at_.line else ""
  | none => ""

/-- What is known about the source. -/
def describer (p : Program) (project : Project) : Describer where
  describe := p.describe project
  siteLabel n s := p.siteLabel project n.unit s.pc

end Program

end CallAtlas
