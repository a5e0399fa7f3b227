import CallAtlas.Json.Member
import CallAtlas.Snapshot.Store

/-!
# Stores as Text

A store between two runs is one JSON text: a list of its entries, each with its key
and, under a member named for its kind, what it holds.

## Main definitions

* `Store.archive`: Writes a store.
* `Store.restore?`: Reads a store.
-/

namespace CallAtlas

namespace Entry

/-- The member that holds an entry. -/
def member : Entry → String × Json
  | text s => ("text", .str s)
  | packed s => ("packed", .str s)
  | document d => ("document", d.toJson)
  | record m => ("record", m.toJson)

/-- Reads the member that holds an entry. -/
def ofMember? (name : String) (j : Json) : Option Entry :=
  match name with
  | "text" => j.str?.map text
  | "packed" => j.str?.map packed
  | "document" => (Document.ofJson j).map document
  | "record" => (Metadata.ofJson j).map record
  | _ => none

end Entry

namespace Store

/-- Writes a store. -/
def archive (s : Store) : String :=
  (Json.arr (s.entries.entries.map fun e => .obj [("key", .str e.1), e.2.member])).render

/-- Reads an entry with its key. -/
def entry? (j : Json) : Option (String × Entry) :=
  (j.textAt? "key").bind fun key =>
    (j.members.findSome? fun m => Entry.ofMember? m.1 m.2).map (key, ·)

/-- Reads a store. -/
def restore? (text : String) : Option Store :=
  (Json.parse? text).bind fun j => (j.items.mapM entry?).map fun es => ⟨.ofList es⟩

end Store

end CallAtlas
