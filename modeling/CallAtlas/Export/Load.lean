import CallAtlas.Export.Model

/-!
# Loading a Model into a Graph Database

A model is loaded by queries: first the indexes, then the packages, the nodes and
the calls, so that what a row refers to is there before it. Rows travel in batches
of at most five thousand.

A connection takes one statement at a time and either answers it or says why it does
not. Sending statements stops at the first that is refused and hands its reason on, and
so does loading, whatever stage it is in.

## Main definitions

* `PackageRow`: A row for a package.
* `Statement`: A statement with the rows it is bound to.
* `Export.clean`, `Export.indexes`, `Export.packages`, `Export.nodes`,
  `Export.calls`: The statements of each stage.
* `Export.send`: Sends statements over a connection.
* `Export.load`: Loads packages and a model.
* `Export.Server`: A server that may refuse one statement.
-/

namespace CallAtlas

/-- A row for a package. -/
structure PackageRow where
  path : String
  name : String
  dir : String
deriving DecidableEq, Inhabited

/-- The rows of a batch. -/
inductive Rows where
  | packages (rows : List PackageRow)
  | funcs (rows : List FuncRow)
  | calls (rows : List CallRow)
deriving DecidableEq, Inhabited

/-- The number of rows. -/
def Rows.size : Rows → Nat
  | packages r => r.length
  | funcs r => r.length
  | calls r => r.length

/-- A statement with the rows it is bound to, if it takes any. -/
structure Statement where
  cypher : String
  rows : Option Rows := none
deriving DecidableEq, Inhabited

namespace Export

/-- The number of rows that travel together. -/
def batchSize : Nat := 5000

/-- Cuts a list into batches, at most `n` of them. -/
def batchesUpTo {α : Type} : (n : Nat) → List α → List (List α)
  | 0, _ => []
  | n + 1, rows =>
    if rows.isEmpty then [] else rows.take batchSize :: batchesUpTo n (rows.drop batchSize)

/-- Cuts a list into batches. -/
def batches {α : Type} (rows : List α) : List (List α) :=
  batchesUpTo (rows.length / batchSize + 1) rows

/-- Removes everything that was loaded before. -/
def clean : List Statement :=
  ["MATCH ()-[r:CALLS]->() DELETE r",
   "MATCH ()-[r:IN_PACKAGE]->() DELETE r",
   "MATCH (n:CGNode) DETACH DELETE n",
   "MATCH (n:CGPackage) DETACH DELETE n"].map fun q => { cypher := q }

/-- Makes the indexes. -/
def indexes : List Statement :=
  ["CREATE INDEX cg_pkg_path IF NOT EXISTS FOR (n:CGPackage) ON (n.import_path)",
   "CREATE INDEX cg_node_id IF NOT EXISTS FOR (n:CGNode) ON (n.node_id)",
   "CREATE INDEX cg_node_fullname IF NOT EXISTS FOR (n:CGNode) ON (n.full_name)"].map
    fun q => { cypher := q }

/-- The statement that loads packages, in lines that are indented as they are sent. -/
def packageQuery : String :=
  "UNWIND $batch AS row\n" ++
  "\t\t MERGE (n:CGPackage \x7bimport_path: row.path\x7d)\n" ++
  "\t\t SET n.name = row.name, n.dir = row.dir"

/-- The statement that loads nodes and ties them to their packages. -/
def nodeQuery : String :=
  "UNWIND $batch AS row\n" ++
  "\t\t MERGE (n:CGNode \x7bnode_id: row.id\x7d)\n" ++
  "\t\t SET n.full_name = row.fullname, n.name = row.name, n.package = row.pkg,\n" ++
  "\t\t     n.file = row.file, n.line = row.line, n.context = row.context,\n" ++
  "\t\t     n.loader = row.loader, n.kind = row.kind,\n" ++
  "\t\t     n.entrypoint = row.entrypoint, n.kept = row.kept\n" ++
  "\t\t WITH n, row\n" ++
  "\t\t MATCH (p:CGPackage \x7bimport_path: row.pkg\x7d)\n" ++
  "\t\t MERGE (n)-[:IN_PACKAGE]->(p)"

/-- The statement that loads calls. -/
def callQuery : String :=
  "UNWIND $batch AS row\n" ++
  "\t\t MATCH (caller:CGNode \x7bnode_id: row.caller\x7d), " ++
    "(callee:CGNode \x7bnode_id: row.callee\x7d)\n" ++
  "\t\t MERGE (caller)-[r:CALLS]->(callee)\n" ++
  "\t\t SET r.sites = row.sites, r.is_dynamic = row.dynamic, r.site = row.site,\n" ++
  "\t\t     r.kept = row.kept"

/-- Loads packages. -/
def packages (rows : List PackageRow) : List Statement :=
  (batches rows).map fun b => { cypher := packageQuery, rows := some (.packages b) }

/-- Loads nodes. -/
def nodes (rows : List FuncRow) : List Statement :=
  (batches rows).map fun b => { cypher := nodeQuery, rows := some (.funcs b) }

/-- Loads calls. -/
def calls (rows : List CallRow) : List Statement :=
  (batches rows).map fun b => { cypher := callQuery, rows := some (.calls b) }

/-- Why a server refuses a statement. -/
structure Refusal where
  text : String
deriving DecidableEq, Inhabited

section Sending

variable {m : Type → Type} [Monad m] {ε : Type}

/-- Sends statements one by one, up to the first that is refused. -/
def send (execute : Statement → ExceptT ε m Unit) (plan : List Statement) : ExceptT ε m Unit :=
  plan.forM execute

/-- Loads packages and a model, in an order in which every row finds what it refers
    to. -/
def load (execute : Statement → ExceptT ε m Unit) (pkgs : List PackageRow) (rows : Model) :
    ExceptT ε m Unit := do
  send execute indexes
  send execute (packages pkgs)
  send execute (nodes rows.funcs)
  send execute (calls rows.calls)

end Sending

/-- A server as far as a caller can tell. -/
structure Server where
  /-- How many more statements it answers before the one that it refuses, if it refuses
      one. -/
  failsAfter : Option Nat := none
  /-- The statements that it has answered. -/
  answered : List Statement := []
deriving DecidableEq, Inhabited

/-- Answers a statement, or refuses it. -/
def Server.execute (q : Statement) : ExceptT Refusal (StateM Server) Unit := fun s =>
  match s.failsAfter with
  | none => (.ok (), { s with answered := s.answered ++ [q] })
  | some 0 => (.error ⟨"Neo4jError"⟩, { s with failsAfter := none })
  | some (k + 1) => (.ok (), { failsAfter := some k, answered := s.answered ++ [q] })

end Export

end CallAtlas
