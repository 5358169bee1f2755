/-!
# Numerals

A numeral is a nonempty sequence of digits in some base.  Readers of numbers
allow one plus sign before it.
-/

namespace ObjectFlow.Text

def decimalDigit? (c : Char) : Option Nat :=
  if '0' ≤ c ∧ c ≤ '9' then some (c.toNat - '0'.toNat) else none

def hexDigit? (c : Char) : Option Nat :=
  if '0' ≤ c ∧ c ≤ '9' then some (c.toNat - '0'.toNat)
  else if 'a' ≤ c ∧ c ≤ 'f' then some (c.toNat - 'a'.toNat + 10)
  else if 'A' ≤ c ∧ c ≤ 'F' then some (c.toNat - 'A'.toNat + 10)
  else none

def numeral? (base : Nat) (digit? : Char → Option Nat) (digits : List Char) : Option Nat :=
  if digits.isEmpty then none
  else digits.foldlM (fun value c => (digit? c).map (base * value + ·)) 0

def withoutPlus : List Char → List Char
  | '+' :: digits => digits
  | digits => digits

def decimal? (text : List Char) : Option Nat :=
  numeral? 10 decimalDigit? (withoutPlus text)

def hexadecimal? (text : List Char) : Option Nat :=
  numeral? 16 hexDigit? (withoutPlus text)

end ObjectFlow.Text
