import CallAtlas.Digest
import CallAtlas.Json.Parse
import CallAtlas.Lifetime
import CallAtlas.Snapshot.Metadata

/-!
# The Snapshot Store

A store maps keys to entries. Each snapshot has two: its compressed document and
its metadata. What entries are made of is a parameter: a store only needs to know how
they are written, hashed, unpacked and read, and takes any answer for granted.

The entries in use keep what saving writes as the document and the metadata
themselves; entries that came from elsewhere are kept as the text they are,
compressed or not, and read when they are asked for.

Loading trusts nothing. The metadata has to be readable, the hash it names has to
be that of the data, the data has to be compressed, and what was compressed has to
be a document that describes a graph. Listing passes over metadata that cannot be
read.

Every call looks once, before anything else, whether its caller still waits.

## Main definitions

* `EntryFormat`: How entries are written and read.
* `Entry`: What a key holds.
* `Store`: The entries by key.
* `StoreError`: Why a call failed.
* `Store.save`, `Store.load`, `Store.list`, `Store.delete`: The calls.
-/

namespace CallAtlas

/-- What is wrong with data that should be compressed. -/
inductive PackFault where
  | noData
  | shortHeader
  | invalidHeader
  /-- The header is good, and what follows cannot be read to its end. -/
  | damaged (reason : String)
deriving DecidableEq

namespace PackFault

/-- What a caller is told. -/
def message : PackFault → String
  | noData => "EOF"
  | shortHeader => "unexpected EOF"
  | invalidHeader => "gzip: invalid header"
  | damaged reason => reason

end PackFault

/-- How entries are written and read. What is compressed in them is of the second
    type. -/
class EntryFormat (E : Type) (T : outParam Type) where
  /-- The compressed form of a document. -/
  ofDocument : Document → E
  /-- The stored form of metadata. -/
  ofMetadata : Metadata → E
  /-- The number of bytes of an entry. -/
  size : E → Nat
  /-- The hash of an entry. -/
  hash : E → String
  /-- The metadata that an entry describes. -/
  metadata? : E → Option Metadata
  /-- What is compressed in an entry. -/
  unpack : E → Except PackFault T
  /-- The document that was compressed. -/
  document? : T → Option Document

/-- What a key holds. -/
inductive Entry where
  /-- Text as it is. -/
  | text (s : String)
  /-- Compressed text. -/
  | packed (s : String)
  /-- A compressed document, as saving writes it. -/
  | document (d : Document)
  /-- Metadata, as saving writes it. -/
  | record (m : Metadata)
deriving DecidableEq, Inhabited

namespace Entry

/-- The bytes of a text. -/
def bytesOf (s : String) : List UInt8 := s.toUTF8.toList

/-- The two bytes with which compressed data starts. -/
def packedMark : List UInt8 := [0x1f, 0x8b]

/-- The bytes of an entry. -/
def bytes : Entry → List UInt8
  | text s => bytesOf s
  | packed s => packedMark ++ bytesOf s
  | document d => packedMark ++ bytesOf d.toJson.render
  | record m => bytesOf m.toJson.render

/-- The hash of an entry. -/
def hash (e : Entry) : String := Digest.hex e.bytes

/-- The metadata that an entry describes. -/
def metadata? : Entry → Option Metadata
  | record m => some m
  | text s => (Json.parse? s).bind Metadata.ofJson
  | packed _ | document _ => none

/-- What is compressed in an entry: a document, as saving writes it, or some text. -/
def unpack : Entry → Except PackFault (Document ⊕ String)
  | document d => .ok (.inl d)
  | packed t => .ok (.inr t)
  | e =>
    let size := e.bytes.length
    .error (if size = 0 then .noData else if size < 10 then .shortHeader else .invalidHeader)

/-- The document that was compressed. -/
def document? : Document ⊕ String → Option Document
  | .inl d => some d
  | .inr t => (Json.parse? t).bind Document.ofJson

instance : EntryFormat Entry (Document ⊕ String) where
  ofDocument := document
  ofMetadata := record
  size e := e.bytes.length
  hash := hash
  metadata? := metadata?
  unpack := unpack
  document? := document?

end Entry

/-- The entries by key. -/
structure Store (E : Type := Entry) where
  entries : Table String E := .empty
deriving DecidableEq, Inhabited

/-- Why a call failed. -/
inductive StoreError where
  | ended (cause : EndCause)
  | notFound (id : String)
  | badMetadata (id : String)
  | hashMismatch (id expected actual : String)
  | notPacked (id : String) (fault : PackFault)
  | badDocument (id : String)
  | badGraph (id : String) (e : DocumentError)
deriving DecidableEq

namespace StoreError

/-- What a caller is told. -/
def message : StoreError → String
  | ended c => c.message
  | notFound id => "snapshot: not found: " ++ id
  | badMetadata id => "unmarshaling metadata for " ++ id
  | hashMismatch id expected actual =>
    "integrity check failed for " ++ id ++ ": expected hash " ++ expected ++ ", got " ++ actual
  | notPacked id (.damaged reason) => "reading decompressed data for " ++ id ++ ": " ++ reason
  | notPacked id f => "decompressing snapshot " ++ id ++ ": " ++ f.message
  | badDocument id => "unmarshaling graph for " ++ id
  | badGraph id e => "reconstructing graph for " ++ id ++ ": " ++ e.message

end StoreError

/-- What a store is missing to be worked with. -/
inductive AttachError where
  | noDatabase
  | noLogger
deriving DecidableEq

namespace AttachError

/-- What a caller is told. -/
def message : AttachError → String
  | noDatabase => "db must not be nil"
  | noLogger => "logger must not be nil"

end AttachError

namespace Store

variable {E T : Type}

/-- The store without entries. -/
def empty : Store E := {}

/-- The store of a database, which has to be there, as has a place to report to. -/
def attach (database : Option (Store E)) (hasLogger : Bool) : Except AttachError (Store E) :=
  match database with
  | none => .error .noDatabase
  | some s => if hasLogger then .ok s else .error .noLogger

/-- What the keys of snapshots start with. -/
def keyStart : String := "cg:snap:"

/-- What the keys of metadata end with. -/
def metaEnd : String := ":meta"

/-- The key of a snapshot's document. -/
def dataKey (id : String) : String := keyStart ++ id ++ ":data"

/-- The key of a snapshot's metadata. -/
def metaKey (id : String) : String := keyStart ++ id ++ metaEnd

/-- Writes an entry. -/
def put (s : Store E) (key : String) (e : E) : Store E := ⟨s.entries.insert key e⟩

/-- Removes an entry. -/
def remove (s : Store E) (key : String) : Store E := ⟨s.entries.erase key⟩

/-- Passes on only if the caller still waits. -/
def whileWaiting {α : Type} (life : Lifetime) (call : Unit → Except StoreError α) :
    Except StoreError α :=
  match life.poll with
  | (some cause, _) => .error (.ended cause)
  | (none, _) => call ()

/-- The metadata of a snapshot that is about to be saved. -/
def describe (doc : Document) (id : String) (createdAtMilli : Int) (projectRoot label : String)
    (E : Type := Entry) [EntryFormat E T] : Metadata :=
  let e : E := EntryFormat.ofDocument doc
  { id, label, projectRoot, createdAtMilli
    nodeCount := doc.nodes.length
    edgeCount := doc.edges.length
    schema := Document.currentSchema
    compressedSize := EntryFormat.size e
    contentHash := EntryFormat.hash e }

variable [EntryFormat E T]

/-- Stores everything to be seen in a graph under a fresh identifier. -/
def save {G : Type} [CallGraph G] (s : Store E) (life : Lifetime) (g : G) (id : String)
    (createdAtMilli : Int) (projectRoot label : String) : Except StoreError (Store E × Metadata) :=
  whileWaiting life fun _ =>
    let doc := Document.encode g
    let m := describe doc id createdAtMilli projectRoot label E
    .ok ((s.put (dataKey id) (EntryFormat.ofDocument doc)).put (metaKey id)
      (EntryFormat.ofMetadata m), m)

/-- The document that an entry holds in compressed form. -/
def unpack (id : String) (e : E) : Except StoreError Document :=
  match EntryFormat.unpack e with
  | .error f => .error (.notPacked id f)
  | .ok content =>
    match EntryFormat.document? (E := E) content with
    | some d => .ok d
    | none => .error (.badDocument id)

/-- Restores a snapshot. -/
def load (s : Store E) (life : Lifetime) (serial : Nat) (id : String) :
    Except StoreError (Graph × Metadata) :=
  whileWaiting life fun _ =>
    match s.entries.find? (dataKey id), s.entries.find? (metaKey id) with
    | some data, some info =>
      match EntryFormat.metadata? info with
      | none => .error (.badMetadata id)
      | some m =>
        let actual := EntryFormat.hash data
        if m.contentHash ≠ "" ∧ m.contentHash ≠ actual then
          .error (.hashMismatch id m.contentHash actual)
        else
          match unpack id data with
          | .error e => .error e
          | .ok doc =>
            match doc.decode serial with
            | .error e => .error (.badGraph id e)
            | .ok g => .ok (g, m)
    | _, _ => .error (.notFound id)

/-- Whether a key is that of metadata. -/
def isMetaKey (key : String) : Bool := key.startsWith keyStart && key.endsWith metaEnd

/-- The entries of metadata in the order of their keys. -/
def metaEntries (s : Store E) : List (String × E) :=
  (s.entries.entries.filter fun e => isMetaKey e.1).mergeSort fun a b => a.1 ≤ b.1

/-- The metadata of every snapshot, newest first, and by key among those of one
    moment. -/
def list (s : Store E) (life : Lifetime) : Except StoreError (List Metadata) :=
  whileWaiting life fun _ =>
    .ok (((metaEntries s).filterMap fun e => EntryFormat.metadata? e.2).mergeSort
      fun a b => b.createdAtMilli ≤ a.createdAtMilli)

/-- Removes a snapshot. It is there if its metadata is. -/
def delete (s : Store E) (life : Lifetime) (id : String) : Except StoreError (Store E) :=
  whileWaiting life fun _ =>
    if s.entries.contains (metaKey id) then
      .ok ((s.remove (dataKey id)).remove (metaKey id))
    else .error (.notFound id)

end Store

end CallAtlas
