import TcpEngine.Address

/-!
# Reading addresses

The text of an address is exactly four decimal numbers separated by dots. A number has one to three
digits, no leading zero, and is at most 255. Nothing else is read, not even blanks around it, so
each address has one text.
-/

namespace TcpEngine

namespace Address

/-- The parts of `s` between its dots, one more than there are dots. -/
def parts : List Char → List (List Char)
  | [] => [[]]
  | c :: s =>
    if c = '.' then [] :: parts s
    else match parts s with
      | [] => [[c]]
      | p :: ps => (c :: p) :: ps

/-- The value of a string of decimal digits. -/
def value (s : List Char) : Nat := s.foldl (fun n c => 10 * n + (c.toNat - '0'.toNat)) 0

/-- The octet with the decimal text `s`. -/
def octet? (s : List Char) : Option UInt8 :=
  if s.all Char.isDigit ∧ 1 ≤ s.length ∧ s.length ≤ 3 ∧ (s.head? = some '0' → s.length = 1) ∧
      value s ≤ 255 then
    some (UInt8.ofNat (value s))
  else none

/-- The address with the text `s`. -/
def parse? (s : String) : Option Address :=
  match parts s.toList with
  | [p, q, r, t] => do
    let a ← octet? p
    let b ← octet? q
    let c ← octet? r
    let d ← octet? t
    return { a, b, c, d }
  | _ => none

end Address

end TcpEngine
