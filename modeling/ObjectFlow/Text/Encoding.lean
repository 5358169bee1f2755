import ObjectFlow.Text.Utf8

/-!
# Encodings

A byte order mark at the front of a text tells how its bytes make up
characters.  A text without one is in UTF-8, and may still name another
encoding whose characters are single bytes.  The main statement is that every
character takes at least one byte, `Encoding.next?_length`.
-/

namespace ObjectFlow.Text

inductive ByteOrder where
  | bigEndian
  | littleEndian
  deriving DecidableEq, Repr

inductive Encoding where
  /-- UTF-8 for want of a mark. -/
  | assumed
  | utf8
  | latin1
  | ascii
  | utf16 (order : ByteOrder)
  deriving DecidableEq, Repr

inductive EncodingFamily where
  | utf8
  | latin1
  | utf16
  | ascii
  deriving DecidableEq, Repr

/-! ## Names of encodings -/

def agree : List Char → List Char → Bool
  | expected :: label, c :: name => expected == c.toLower && agree label name
  | _, _ => true

namespace EncodingFamily

def labels : List (EncodingFamily × List String) :=
  [(utf8, ["utf-8", "utf8"]), (latin1, ["iso-8859-1", "latin1"]), (utf16, ["utf-16", "utf16"]),
    (ascii, ["ascii", "us-ascii"])]

/--
The family that a name stands for: the first one with a label that agrees with the name as far as
both go.  So a name may be cut short, or go on after the label.
-/
def ofName? (name : String) : Option EncodingFamily :=
  (labels.find? fun entry => entry.2.any fun label => agree label.toList name.toList).map Prod.fst

end EncodingFamily

namespace Encoding

/-- The encoding of a text that names an encoding, unless the name contradicts its mark. -/
def declare? : Encoding → EncodingFamily → Option Encoding
  | assumed, .utf8 => some utf8
  | assumed, .latin1 => some latin1
  | assumed, .ascii => some ascii
  | utf8, .utf8 => some utf8
  | utf16 order, .utf16 => some (utf16 order)
  | _, _ => none

def detect : List UInt8 → Encoding × List UInt8
  | 0xEF :: 0xBB :: 0xBF :: rest => (utf8, rest)
  | 0xFE :: 0xFF :: rest => (utf16 .bigEndian, rest)
  | 0xFF :: 0xFE :: rest => (utf16 .littleEndian, rest)
  | bytes => (assumed, bytes)

end Encoding

/-! ## Characters -/

def ByteOrder.unit : ByteOrder → UInt8 → UInt8 → Nat
  | .bigEndian, first, second => first.toNat * 0x100 + second.toNat
  | .littleEndian, first, second => second.toNat * 0x100 + first.toNat

def surrogatePair? (high low : Nat) : Option Char :=
  if 0xD800 ≤ high ∧ high < 0xDC00 ∧ 0xDC00 ≤ low ∧ low < 0xE000 then
    some (Char.ofNat (0x10000 + (high - 0xD800) * 0x400 + (low - 0xDC00)))
  else
    none

def decodeUnits? (order : ByteOrder) : List UInt8 → Option (Char × List UInt8)
  | first :: second :: rest =>
      let unit := order.unit first second
      if unit < 0xD800 ∨ 0xE000 ≤ unit then
        some (Char.ofNat unit, rest)
      else
        match rest with
        | third :: fourth :: rest =>
            (surrogatePair? unit (order.unit third fourth)).map fun c => (c, rest)
        | _ => none
  | _ => none

def Encoding.next? : Encoding → List UInt8 → Option (Char × List UInt8)
  | .assumed, bytes | .utf8, bytes => decodeChar? bytes
  | .latin1, byte :: rest => some (Char.ofNat byte.toNat, rest)
  | .ascii, byte :: rest => if byte < 0x80 then some (Char.ofNat byte.toNat, rest) else none
  | .utf16 order, bytes => decodeUnits? order bytes
  | _, [] => none

private theorem decodeChar?_length {bytes rest : List UInt8} {c : Char}
    (h : decodeChar? bytes = some (c, rest)) : rest.length < bytes.length := by
  cases bytes with
  | nil => simp [decodeChar?] at h
  | cons first tail =>
      simp only [decodeChar?, Option.bind_eq_bind, Option.pure_def] at h
      grind [Option.bind_eq_some_iff]

private theorem decodeUnits?_length {order : ByteOrder} {bytes rest : List UInt8} {c : Char}
    (h : decodeUnits? order bytes = some (c, rest)) : rest.length < bytes.length := by
  unfold decodeUnits? at h
  grind [Option.map_eq_some_iff]

theorem Encoding.next?_length {encoding : Encoding} {bytes rest : List UInt8} {c : Char}
    (h : encoding.next? bytes = some (c, rest)) : rest.length < bytes.length := by
  unfold Encoding.next? at h
  split at h
  · exact decodeChar?_length h
  · exact decodeChar?_length h
  · grind
  · grind
  · exact decodeUnits?_length h
  · simp at h

end ObjectFlow.Text
