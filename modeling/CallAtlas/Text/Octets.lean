/-!
# Texts as Octets

A text as the octets that carry it, and the text that octets carry. Octets that
carry no character are shown by the replacement character, one for each, so every
list of octets has a text.

## Main definitions

* `octets`: The octets of a text.
* `ofOctets`: The text of a list of octets.
-/

namespace CallAtlas

namespace Text

/-- The octets of a text. -/
def octets (s : String) : List UInt8 := s.toUTF8.toList

/-- The character that stands for an octet outside any character. -/
def replacement : Char := Char.ofNat 0xFFFD

/-- Whether an octet continues a character, and the six bits it then adds. -/
def continuation? (b : UInt8) : Option Nat :=
  if 0x80 ≤ b.toNat && b.toNat < 0xC0 then some (b.toNat - 0x80) else none

/-- Adds the bits of continuing octets. -/
def withContinuations : Nat → List UInt8 → Option Nat
  | n, [] => some n
  | n, b :: bs => (continuation? b).bind fun k => withContinuations (n * 64 + k) bs

/-- The character that a leading octet begins, with the number of octets that
    continue it. Of the ways to write a character only the shortest counts. -/
def character? (lead : UInt8) (rest : List UInt8) : Option (Char × Nat) :=
  let n := lead.toNat
  let made (start least extra : Nat) : Option (Char × Nat) :=
    if rest.length < extra then none
    else (withContinuations (n - start) (rest.take extra)).bind fun v =>
      if v < least || !v.isValidChar then none else some (Char.ofNat v, extra)
  if n < 0x80 then some (Char.ofNat n, 0)
  else if n < 0xC0 then none
  else if n < 0xE0 then made 0xC0 0x80 1
  else if n < 0xF0 then made 0xE0 0x800 2
  else if n < 0xF8 then made 0xF0 0x10000 3
  else none

/-- The characters of a list of octets, of which the first `skip` belong to a
    character that is already read. -/
def charactersAfter : (skip : Nat) → List UInt8 → List Char
  | _, [] => []
  | skip + 1, _ :: bs => charactersAfter skip bs
  | 0, b :: bs =>
    match character? b bs with
    | some (c, extra) => c :: charactersAfter extra bs
    | none => replacement :: charactersAfter 0 bs

/-- The text of a list of octets. -/
def ofOctets (bs : List UInt8) : String := String.ofList (charactersAfter 0 bs)

end Text

end CallAtlas
