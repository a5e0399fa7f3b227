import CallAtlas.Text.Blank
import CallAtlas.Text.Literal
import CallAtlas.Text.Search

/-!
# Module Directives

The module file of a project names its module in a directive on a line of its own.
The first line that has the form of the directive decides: if what it names is a
broken literal, the file names no module.

## Main definitions

* `ModuleFile.lineDirective?`: What a line names.
* `ModuleFile.modulePath?`: The module path that a file names.
-/

namespace CallAtlas

namespace ModuleFile

/-- What a line names, if it has the form of a directive: the word, blanks and a
    name, plain or as a literal. Comments run to the end of the line. -/
def lineDirective? (line : List Char) : Option (List Char) :=
  let content := Text.trimBoth Text.isBlank (Text.beforeFirst ['/', '/'] line)
  (Text.afterFront? "module".toList content).bind fun rest =>
    let name := Text.trimBoth Text.isBlank rest
    if name.length = rest.length || name.isEmpty then none else some name

/-- The module path that a directive's name stands for. -/
def nameValue (name : List Char) : String :=
  if name.head? = some '"' || name.head? = some '\x60' then
    ((Text.literalValue? name).map Text.ofOctets).getD ""
  else String.ofList name

/-- The module path that a file names. -/
def modulePath? (text : String) : Option String :=
  (((Text.pieces '\n' text.toList).findSome? lineDirective?).map nameValue).bind fun path =>
    if path = "" then none else some path

end ModuleFile

end CallAtlas
