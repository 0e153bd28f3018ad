import CyberAccountant.Library.Decimals
import CyberAccountant.Library.Xml
import CyberAccountant.Ledger.Accounts

/-! What handlers read from the path and the query of a request: ids and the bounds of a page. -/

namespace CyberAccountant.Api

open CyberAccountant.Library CyberAccountant.Ledger

def isUuidSegment (s : List Char) : Bool :=
  s.length = 36 && s.zipIdx.all fun p =>
    if p.2 = 8 ∨ p.2 = 13 ∨ p.2 = 18 ∨ p.2 = 23 then p.1 = '-' else (Xml.hexDigit p.1).isSome

def isValidUuid (s : String) : Bool := isUuidSegment s.toList

/-- The id that such a text denotes, in digits of either case. -/
def readUuid (s : String) : Option Uuid :=
  if isValidUuid s then Xml.ofDigits 16 ((s.toList.filter (· ≠ '-')).map Xml.hexDigit) else none

/-- `std::stoi`: blanks, a sign and digits, whatever follows; `none` where it throws. -/
def stoi (s : String) : Option Int :=
  let (negative, rest) := readSign (s.toList.dropWhile isSpace)
  let digits := rest.takeWhile Char.isDigit
  let magnitude : Int := Nat.ofDigitChars 10 digits 0
  let value := if negative then -magnitude else magnitude
  if digits ≠ [] ∧ -2147483648 ≤ value ∧ value ≤ 2147483647 then some value else none

def parseInt (s : String) (default : Int) : Int := (stoi s).getD default

def clampInt (s : String) (default lo hi : Int) : Int :=
  let v := parseInt s default
  if v < lo then lo else if hi < v then hi else v

structure PageParams where
  limit : Nat
  offset : Nat
  deriving DecidableEq

/-- The page that the query names; `""` stands for a parameter that it has not. -/
def parsePageParams (limit offset : String) (defaultLimit maxLimit : Int) : PageParams :=
  ⟨(clampInt limit defaultLimit 1 maxLimit).toNat, (clampInt offset 0 0 1000000).toNat⟩

/-- `LIMIT` and `OFFSET`. -/
def PageParams.cut {α : Type} (page : PageParams) (rows : List α) : List α := (rows.drop page.offset).take page.limit

end CyberAccountant.Api
