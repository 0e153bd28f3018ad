import Mathlib.Data.List.Basic

/-! The check digit of a BIN or an IIN: twelve digits, of which the last is a weighted sum of the others. -/

namespace CyberAccountant.Ledger

def w1 : List Nat := [1, 2, 3, 4, 5, 6, 7, 8, 9, 10, 11]

def w2 : List Nat := [3, 4, 5, 6, 7, 8, 9, 10, 11, 1, 2]

/-- The value of a decimal digit. -/
def digitValue (c : Char) : Nat := c.toNat - '0'.toNat

def weightedSum : List Nat → List Nat → Nat
  | d :: ds, w :: ws => d * w + weightedSum ds ws
  | _, _ => 0

def weighted (d w : List Nat) : Nat := weightedSum d w % 11

/-- The check digit of eleven digits; none where both sums are 10. -/
def checkDigit (d : List Nat) : Option Nat :=
  if weighted d w1 ≠ 10 then some (weighted d w1)
  else if weighted d w2 ≠ 10 then some (weighted d w2)
  else none

def isValidBinIin (id : String) : Bool :=
  let cs := id.toList
  let d := cs.map digitValue
  cs.length = 12 && cs.all Char.isDigit && checkDigit (d.take 11) = d[11]?

end CyberAccountant.Ledger
