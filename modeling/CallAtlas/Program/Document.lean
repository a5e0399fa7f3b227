import CallAtlas.Json.Member
import CallAtlas.Program.Facts

/-!
# Program Descriptions

A program is described by a JSON document that a compiler writes. Members that have
nothing to say are left out.

## Main definitions

* `Program.ofJson`: The program that a document describes.
-/

namespace CallAtlas

/-- The position that a description gives, if it gives one. -/
def SourcePosition.ofJson? (j : Json) : Option SourcePosition :=
  match j.field "pos" with
  | .arr l => some ⟨((Json.arr l).item 0).asText, ((Json.arr l).item 1).asInt⟩
  | _ => none

/-- The origin that a description gives: its kind, and the type and name of a field. -/
def Origin.ofJson (j : Json) : Origin :=
  let type := (j.item 1).asText
  let name := (j.item 2).asText
  match (j.item 0).asText with
  | "load_field" => .fieldLoad type name
  | "load_index" => .elementLoad
  | "load" => .otherLoad
  | "unop" => .otherOperation
  | "field" => .field type name
  | "index" => .element
  | "lookup" => .lookup
  | _ => .other

/-- The operation that a description gives. -/
def Operation.ofJson (j : Json) : Operation :=
  match j.textAt "k" with
  | "closure" => .makeClosure (j.natAt "fn")
  | "static" => .callStatic (j.natAt "fn")
  | "invoke" => .callInterface (j.natAt "invoke") (.ofJson (j.field "origin"))
  | "value" => .callValue (j.textAt "sig") (j.natAt "sig_class") (.ofJson (j.field "origin"))
  | _ => .callBuiltin

/-- The instruction that a description gives. -/
def Instruction.ofJson (j : Json) : Instruction :=
  { operation := .ofJson j, position := SourcePosition.ofJson? j }

/-- The function that a description gives. -/
def Function.ofJson (j : Json) : Function :=
  { label := j.textAt "str", name := j.textAt "name", signature := j.textAt "sig"
    signatureClass := j.natAt "sig_class", receiver := j.textAt? "recv"
    receiverName := j.textAt? "recv_name", package := j.textAt? "pkg", object := j.natAt? "obj"
    objectPackage := j.textAt? "obj_pkg", generic := j.natAt? "origin"
    initializer := j.natAt? "init", hasBody := j.flagAt "body"
    position := SourcePosition.ofJson? j, listed := j.flagAt "all"
    code := (j.listAt "code").map Instruction.ofJson }

/-- The implementer that a description gives. -/
def Implementer.ofJson (j : Json) : Implementer :=
  { type := (j.item 0).asText, byValue := (j.item 1).int?.map Int.toNat
    byPointer := (j.item 2).int?.map Int.toNat }

/-- The interface method that a description gives. -/
def InterfaceMethod.ofJson (j : Json) : InterfaceMethod :=
  { type := j.textAt "type", name := j.textAt "method", signature := j.textAt "msig"
    implementers := (j.listAt "impls").map Implementer.ofJson }

/-- The named type that a description gives. -/
def NamedType.ofJson (j : Json) : NamedType :=
  { name := j.textAt "name", isInterface := j.flagAt "interface", assignable := j.textsAt "to"
    pointerAssignable := j.textsAt "ptr_to" }

/-- The function of a package that a description gives. -/
def FunctionMember.ofJson (j : Json) : FunctionMember :=
  { function := j.natAt "fn", declared := j.flagAt "declared", exported := j.flagAt "exported"
    isGeneric := j.flagAt "generic" }

/-- The type of a package that a description gives. -/
def TypeMember.ofJson (j : Json) : TypeMember :=
  { exported := j.flagAt "exported", isGeneric := j.flagAt "generic"
    methods := (j.listAt "methods").map fun m => (m.natAt "fn", m.flagAt "exported") }

/-- The package that a description gives. -/
def Package.ofJson (j : Json) : Package :=
  { path := j.textAt "path", name := j.textAt "name", main := j.natAt? "main"
    initializer := j.natAt? "init", functions := (j.listAt "funcs").map FunctionMember.ofJson
    types := (j.listAt "types").map TypeMember.ofJson }

/-- The program that a document describes. -/
def Program.ofJson (j : Json) : Program :=
  { loaded := (j.listAt "loaded").map fun l => ((l.item 0).asText, (l.item 1).asText)
    functions := ((j.listAt "funcs").map Function.ofJson).toArray
    interfaceMethods := ((j.listAt "invokes").map InterfaceMethod.ofJson).toArray
    types := (j.listAt "types").map NamedType.ofJson
    packages := (j.listAt "packages").map Package.ofJson
    analysed := (j.listAt "vta_nodes").map Json.asNat
    callees := (j.listAt "vta_calls").map fun c => ((c.item 0).asNat, (c.item 1).asNat, (c.item 2).asNat) }

end CallAtlas
