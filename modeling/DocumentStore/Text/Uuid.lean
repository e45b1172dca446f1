import DocumentStore.Text.Blank
import DocumentStore.Text.Hex

/-!
# Universally unique identifiers in text

Sixteen bytes as 32 hexadecimal digits, either plain or in five groups between hyphens.
The grouped form may stand in braces or behind `urn:uuid:`, and letters have any case.
-/

namespace DocumentStore.Text.Uuid

def ungroup? (cs : List Char) : Option (List Char) :=
  match splitOn '-' cs with
  | [a, b, c, d, e] =>
    if [a, b, c, d, e].map List.length = [8, 4, 4, 4, 12] then some (a ++ b ++ c ++ d ++ e)
    else none
  | _ => none

def digits? : List Char → Option (List Char)
  | '\x7b' :: rest => (dropEnd? '\x7d' rest).bind ungroup?
  | 'u' :: 'r' :: 'n' :: ':' :: 'u' :: 'u' :: 'i' :: 'd' :: ':' :: rest => ungroup? rest
  | cs => if cs.length = 32 then some cs else ungroup? cs

def bytes? (cs : List Char) : Option (List UInt8) := (digits? (lower cs)).bind Hex.decodeBytes?

end DocumentStore.Text.Uuid
