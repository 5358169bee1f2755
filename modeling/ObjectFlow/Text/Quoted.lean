import ObjectFlow.Text.Printable

/-!
# Quoted text

A quoted text stands between double quotes.  A quote and a backslash inside it
follow a backslash, the usual control characters have letters, and any other
character that is not printable is written by its code point in hexadecimal.
-/

namespace ObjectFlow.Text

def quoteChar (c : Char) : List Char :=
  match c.toNat with
  | 0x00 => ['\\', '0']
  | 0x09 => ['\\', 't']
  | 0x0A => ['\\', 'n']
  | 0x0D => ['\\', 'r']
  | 0x22 => ['\\', c]
  | 0x5C => ['\\', c]
  | code =>
      if isPrintable c then [c]
      else ['\\', 'u', '\x7b'] ++ Nat.toDigits 16 code ++ ['\x7d']

def quote (text : String) : String :=
  String.ofList (['\x22'] ++ text.toList.flatMap quoteChar ++ ['\x22'])

end ObjectFlow.Text
