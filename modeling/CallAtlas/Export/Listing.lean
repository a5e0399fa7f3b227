import CallAtlas.Export.Load
import CallAtlas.Json.Basic

/-!
# Listings of Models

The rows of a model as JSON: as a model lists them, and as they are bound to the
statements that load them.

## Main definitions

* `Model.listing`: The rows of a model.
* `Rows.bound`: The rows of a batch as they are bound.
-/

namespace CallAtlas

/-- A row for a node. -/
def FuncRow.listing (f : FuncRow) : Json :=
  .obj [("id", .ofInt f.id), ("name", .str f.name), ("full_name", .str f.fullName),
    ("package", .str f.package), ("file", .str f.file), ("line", .ofInt f.line),
    ("context", .str f.context), ("loader", .str f.loader), ("kind", .str f.kind),
    ("entrypoint", .bool f.entrypoint), ("kept", .bool f.kept)]

/-- A row for an edge, which is bound as it is listed. -/
def CallRow.listing (c : CallRow) : Json :=
  .obj [("caller", .ofInt c.caller), ("callee", .ofInt c.callee), ("sites", .ofInt c.sites),
    ("dynamic", .bool c.isDynamic), ("site", .str c.site), ("kept", .bool c.kept)]

/-- The rows of a model. -/
def Model.listing (m : Model) : Json :=
  let (nodes, edges) := m.kept
  .obj [("funcs", .arr (m.funcs.map FuncRow.listing)), ("calls", .arr (m.calls.map CallRow.listing)),
    ("kept_nodes", .ofNat nodes), ("kept_edges", .ofNat edges)]

/-- A row for a package as it is bound. -/
def PackageRow.bound (p : PackageRow) : Json :=
  .obj [("path", .str p.path), ("name", .str p.name), ("dir", .str p.dir)]

/-- A row for a node as it is bound. -/
def FuncRow.bound (f : FuncRow) : Json :=
  .obj [("id", .ofInt f.id), ("fullname", .str f.fullName), ("name", .str f.name),
    ("pkg", .str f.package), ("file", .str f.file), ("line", .ofInt f.line),
    ("context", .str f.context), ("loader", .str f.loader), ("kind", .str f.kind),
    ("entrypoint", .bool f.entrypoint), ("kept", .bool f.kept)]

/-- The rows of a batch as they are bound. -/
def Rows.bound : Rows → List Json
  | packages l => l.map PackageRow.bound
  | funcs l => l.map FuncRow.bound
  | calls l => l.map CallRow.listing

end CallAtlas
