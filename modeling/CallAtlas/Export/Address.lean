import CallAtlas.Text.Search

/-!
# Addresses of Servers

An address starts with a scheme, which says how the server is talked to: directly, or
through whichever server of a cluster answers for a part of the data. Only the latter
may be given parameters. A host may be followed by a colon and a number, and by
nothing else.

## Main definitions

* `Address.isUsable`: Whether a server can be talked to at an address at all.
-/

namespace CallAtlas

namespace Address

/-- The schemes of servers that are talked to directly. -/
def directSchemes : List String := ["bolt", "bolt+s", "bolt+ssc", "bolt+unix"]

/-- The schemes of clusters. -/
def clusterSchemes : List String := ["neo4j", "neo4j+s", "neo4j+ssc"]

/-- Whether a character may stand in a scheme after its first. -/
def isSchemeChar (c : Char) : Bool := c.isAlphanum || c = '+' || c = '-' || c = '.'

/-- The scheme of an address, in lower case, and what follows its colon. -/
def scheme? (cs : List Char) : Option (String × List Char) :=
  let name := cs.takeWhile isSchemeChar
  match cs.drop name.length with
  | ':' :: rest =>
    if name.head?.any Char.isAlpha then some ((String.ofList name).toLower, rest) else none
  | _ => none

/-- Whether a character may stand in the name of a host. -/
def isHostChar (c : Char) : Bool :=
  c.isAlphanum || 128 ≤ c.toNat || "-_.~!$&'()*+,;=:[]<>\"".toList.contains c

/-- Whether a text is nothing, or a colon and digits. -/
def isHostEnd : List Char → Bool
  | [] => true
  | c :: cs => c = ':' && cs.all Char.isDigit

/-- The host of an authority, without the user in front of it. -/
def host (authority : List Char) : List Char :=
  ((Text.pieces '@' authority).getLast?).getD []

/-- Whether a host, maybe with a number, can be read. -/
def isHost (cs : List Char) : Bool :=
  cs.all isHostChar &&
    match cs with
    | '[' :: _ =>
      cs.contains ']' && isHostEnd (((Text.pieces ']' cs).getLast?).getD [])
    | _ => !cs.contains ':' || isHostEnd (':' :: ((Text.pieces ':' cs).getLast?).getD [])

/-- Whether a server can be talked to at an address at all. -/
def isUsable (address : String) : Bool :=
  let cs := address.toList
  let isControl (c : Char) : Bool := c.toNat < 32 || c.toNat = 127
  !cs.any isControl &&
    match scheme? (cs.takeWhile (· ≠ '#')) with
    | none => false
    | some (scheme, rest) =>
      let parameters := (rest.dropWhile (· ≠ '?')).drop 1
      let place := rest.takeWhile (· ≠ '?')
      let named := ((Text.afterFront? "//".toList place).map (·.takeWhile (· ≠ '/'))).getD []
      (clusterSchemes.contains scheme || (directSchemes.contains scheme && parameters.isEmpty)) &&
        (scheme ≠ "bolt+unix" || named.isEmpty) && isHost (host named)

end Address

end CallAtlas
