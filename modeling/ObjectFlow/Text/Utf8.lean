/-!
# UTF-8

Decoding stops at the first byte that does not begin a well formed character.
Overlong forms, surrogates and code points beyond the last one are not well
formed.
-/

namespace ObjectFlow.Text

def continuation? (byte : UInt8) : Option Nat :=
  let value := byte.toNat
  if 0x80 ≤ value ∧ value < 0xC0 then some (value - 0x80) else none

/-- The character of a code point that needs at least the number of bytes it was written in. -/
def charFrom? (least code : Nat) : Option Char :=
  if least ≤ code ∧ code.isValidChar then some (Char.ofNat code) else none

def decodeChar? : List UInt8 → Option (Char × List UInt8)
  | [] => none
  | first :: rest =>
      let lead := first.toNat
      if lead < 0x80 then
        some (Char.ofNat lead, rest)
      else if 0xC0 ≤ lead ∧ lead < 0xE0 then
        match rest with
        | b :: rest => do
            let low ← continuation? b
            let c ← charFrom? 0x80 ((lead - 0xC0) * 0x40 + low)
            pure (c, rest)
        | _ => none
      else if 0xE0 ≤ lead ∧ lead < 0xF0 then
        match rest with
        | a :: b :: rest => do
            let middle ← continuation? a
            let low ← continuation? b
            let c ← charFrom? 0x800 (((lead - 0xE0) * 0x40 + middle) * 0x40 + low)
            pure (c, rest)
        | _ => none
      else if 0xF0 ≤ lead ∧ lead < 0xF8 then
        match rest with
        | a :: b :: d :: rest => do
            let high ← continuation? a
            let middle ← continuation? b
            let low ← continuation? d
            let c ← charFrom? 0x10000
              ((((lead - 0xF0) * 0x40 + high) * 0x40 + middle) * 0x40 + low)
            pure (c, rest)
        | _ => none
      else
        none

def decodeUpTo : Nat → List UInt8 → List Char
  | 0, _ => []
  | bound + 1, bytes =>
      match decodeChar? bytes with
      | some (c, rest) => c :: decodeUpTo bound rest
      | none => []

/-- The longest well formed beginning of a text in UTF-8. -/
def decodeUtf8 (bytes : List UInt8) : List Char :=
  decodeUpTo bytes.length bytes

end ObjectFlow.Text
