import CallAtlas.Json.Record
import CallAtlas.Json.Render
import CallAtlas.Snapshot.Document

/-!
# Stored Texts

Documents and the metadata of snapshots as JSON: which members their fields have,
and the text that saving writes. Empty site lists and labels are left out, and the
lists of a document that are empty are written as `null`.

## Main definitions

* `Metadata`: What is known of a snapshot without loading it.
* `Metadata.ofJson`, `Metadata.toJson`: The stored form of metadata.
* `Document.ofJson`, `Document.toJson`: The stored form of documents.
-/

namespace CallAtlas

/-- What is known of a snapshot without loading it. -/
structure Metadata where
  id : String := ""
  label : String := ""
  projectRoot : String := ""
  createdAtMilli : Int := 0
  nodeCount : Int := 0
  edgeCount : Int := 0
  schema : String := ""
  compressedSize : Int := 0
  contentHash : String := ""
deriving DecidableEq, Inhabited

namespace Metadata

/-- Fills one field. -/
def fill (m : Metadata) (field : String) (j : Json) : Option Metadata :=
  match field with
  | "id" => (j.fillString m.id).map fun v => { m with id := v }
  | "label" => (j.fillString m.label).map fun v => { m with label := v }
  | "project_root" => (j.fillString m.projectRoot).map fun v => { m with projectRoot := v }
  | "created_at_milli" => (j.fillInt m.createdAtMilli).map fun v => { m with createdAtMilli := v }
  | "node_count" => (j.fillInt m.nodeCount).map fun v => { m with nodeCount := v }
  | "edge_count" => (j.fillInt m.edgeCount).map fun v => { m with edgeCount := v }
  | "schema_version" => (j.fillString m.schema).map fun v => { m with schema := v }
  | "compressed_size" => (j.fillInt m.compressedSize).map fun v => { m with compressedSize := v }
  | "content_hash" => (j.fillString m.contentHash).map fun v => { m with contentHash := v }
  | _ => some m

/-- The members of stored metadata. -/
def fields : List String :=
  ["id", "label", "project_root", "created_at_milli", "node_count", "edge_count",
   "schema_version", "compressed_size", "content_hash"]

/-- Reads metadata. -/
def ofJson (j : Json) : Option Metadata := Json.fillRecord fields fill {} j

/-- Writes metadata. -/
def toJson (m : Metadata) : Json :=
  let label : List (String × Json) := if m.label = "" then [] else [("label", .str m.label)]
  .obj ([("id", .str m.id)] ++ label ++
    [("project_root", .str m.projectRoot), ("created_at_milli", .ofInt m.createdAtMilli),
     ("node_count", .ofInt m.nodeCount), ("edge_count", .ofInt m.edgeCount),
     ("schema_version", .str m.schema), ("compressed_size", .ofInt m.compressedSize),
     ("content_hash", .str m.contentHash)])

end Metadata

namespace SiteRecord

/-- Fills one field. -/
def fill (s : SiteRecord) (field : String) (j : Json) : Option SiteRecord :=
  match field with
  | "pc" => (j.fillInt s.pc).map fun v => { s with pc := v }
  | "kind" => (j.fillString s.kind).map fun v => { s with kind := v }
  | "class" => (j.fillString s.owner).map fun v => { s with owner := v }
  | "name" => (j.fillString s.name).map fun v => { s with name := v }
  | "signature" => (j.fillString s.signature).map fun v => { s with signature := v }
  | _ => some s

/-- Reads a stored site over an older one. -/
def update (old : SiteRecord) (j : Json) : Option SiteRecord :=
  Json.fillRecord ["pc", "kind", "class", "name", "signature"] fill old j

/-- Writes a stored site. -/
def toJson (s : SiteRecord) : Json :=
  .obj [("pc", .ofInt s.pc), ("kind", .str s.kind), ("class", .str s.owner),
    ("name", .str s.name), ("signature", .str s.signature)]

end SiteRecord

namespace NodeRecord

/-- Fills one field. -/
def fill (n : NodeRecord) (field : String) (j : Json) : Option NodeRecord :=
  match field with
  | "id" => (j.fillInt n.id).map fun v => { n with id := v }
  | "kind" => (j.fillString n.kind).map fun v => { n with kind := v }
  | "class" => (j.fillString n.owner).map fun v => { n with owner := v }
  | "name" => (j.fillString n.name).map fun v => { n with name := v }
  | "signature" => (j.fillString n.signature).map fun v => { n with signature := v }
  | "context" => (j.fillString n.context).map fun v => { n with context := v }
  | "sites" => (j.fillList SiteRecord.update {} n.sites).map fun v => { n with sites := v }
  | _ => some n

/-- Reads a stored node over an older one. -/
def update (old : NodeRecord) (j : Json) : Option NodeRecord :=
  Json.fillRecord ["id", "kind", "class", "name", "signature", "context", "sites"] fill old j

/-- Writes a stored node. -/
def toJson (n : NodeRecord) : Json :=
  let sites : List (String × Json) :=
    if n.sites.isEmpty then [] else [("sites", .arr (n.sites.map SiteRecord.toJson))]
  .obj ([("id", .ofInt n.id), ("kind", .str n.kind), ("class", .str n.owner),
    ("name", .str n.name), ("signature", .str n.signature), ("context", .str n.context)] ++ sites)

end NodeRecord

namespace EdgeRecord

/-- Fills one field. -/
def fill (e : EdgeRecord) (field : String) (j : Json) : Option EdgeRecord :=
  match field with
  | "from" => (j.fillInt e.src).map fun v => { e with src := v }
  | "to" => (j.fillInt e.dst).map fun v => { e with dst := v }
  | "sites" => (j.fillList Json.fillInt 0 e.sites).map fun v => { e with sites := v }
  | _ => some e

/-- Reads a stored edge over an older one. -/
def update (old : EdgeRecord) (j : Json) : Option EdgeRecord :=
  Json.fillRecord ["from", "to", "sites"] fill old j

/-- Writes a stored edge. -/
def toJson (e : EdgeRecord) : Json :=
  let sites : List (String × Json) :=
    if e.sites.isEmpty then [] else [("sites", .arr (e.sites.map Json.ofInt))]
  .obj ([("from", .ofInt e.src), ("to", .ofInt e.dst)] ++ sites)

end EdgeRecord

namespace Document

/-- Fills one field. -/
def fill (d : Document) (field : String) (j : Json) : Option Document :=
  match field with
  | "schema_version" => (j.fillString d.schema).map fun v => { d with schema := v }
  | "nodes" => (j.fillList NodeRecord.update {} d.nodes).map fun v => { d with nodes := v }
  | "edges" => (j.fillList EdgeRecord.update {} d.edges).map fun v => { d with edges := v }
  | "entrypoints" =>
    (j.fillList Json.fillInt 0 d.entrypoints).map fun v => { d with entrypoints := v }
  | _ => some d

/-- Reads a document. -/
def ofJson (j : Json) : Option Document :=
  Json.fillRecord ["schema_version", "nodes", "edges", "entrypoints"] fill {} j

/-- A list as it is stored: nothing for an empty one. -/
def listToJson (items : List Json) : Json := if items.isEmpty then .null else .arr items

/-- Writes a document. -/
def toJson (d : Document) : Json :=
  .obj [("schema_version", .str d.schema),
    ("nodes", listToJson (d.nodes.map NodeRecord.toJson)),
    ("edges", listToJson (d.edges.map EdgeRecord.toJson)),
    ("entrypoints", listToJson (d.entrypoints.map Json.ofInt))]

end Document

end CallAtlas
