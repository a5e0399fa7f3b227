import CallAtlas.Path

/-!
# Projects

A project is a module in a directory. Its packages are those whose import path is
the module's or continues it. Paths of files and packages are shown from the
project's point of view, so that a model does not depend on where it was made.

## Main definitions

* `Project`: A module in a directory.
* `Project.owns`: Whether an import path belongs to the project.
* `Project.shorten`: A file or import path from the project's point of view.
-/

namespace CallAtlas

/-- A module in a directory. -/
structure Project where
  modulePath : String
  dir : String
deriving DecidableEq, Inhabited

namespace Project

/-- Whether an import path belongs to the project. -/
def owns (p : Project) (importPath : String) : Bool :=
  importPath = p.modulePath ||
    (Text.afterFront? (p.modulePath.toList ++ ['/']) importPath.toList).isSome

/-- A file or import path from the project's point of view: the way from the
    directory if it leads down, else what follows the module path, else the whole
    path. -/
def shortenChars (p : Project) (path : List Char) : List Char :=
  match Path.way? (Path.parse p.dir.toList) (Path.parse path) with
  | some way => if (Text.afterFront? Path.up way).isSome then afterModule else way
  | none => afterModule
where
  /-- What follows the module path. -/
  afterModule : List Char :=
    match Text.afterFirst? p.modulePath.toList path with
    | some ('/' :: rest) => rest
    | some rest => rest
    | none => path

/-- A file or import path from the project's point of view. -/
def shorten (p : Project) (path : String) : String :=
  String.ofList (p.shortenChars path.toList)

end Project

end CallAtlas
