/-!
# Blank characters, trimming and comma separated lists

Names are compared after the blanks around them are taken off.  A blank is a
character with the Unicode property `White_Space`; other invisible characters,
such as the zero-width space, belong to the name.
-/

namespace ObjectFlow.Text

/-- The characters with the property `White_Space`. -/
def isBlank (c : Char) : Bool :=
  let code := c.toNat
  (0x09 ≤ code && code ≤ 0x0D) || code == 0x20 || code == 0x85 || code == 0xA0 ||
    code == 0x1680 || (0x2000 ≤ code && code ≤ 0x200A) || code == 0x2028 || code == 0x2029 ||
    code == 0x202F || code == 0x205F || code == 0x3000

def trimBoth (drops : Char → Bool) (chars : List Char) : List Char :=
  ((chars.dropWhile drops).reverse.dropWhile drops).reverse

def trim (name : String) : String :=
  String.ofList (trimBoth isBlank name.toList)

def splitOn (separator : Char) : List Char → List (List Char)
  | [] => [[]]
  | c :: rest =>
      if c = separator then
        [] :: splitOn separator rest
      else
        match splitOn separator rest with
        | [] => [[c]]
        | piece :: pieces => (c :: piece) :: pieces

def splitList (list : Option String) : List String :=
  match list with
  | none => []
  | some text =>
      ((splitOn ',' text.toList).map (trimBoth isBlank)).filter (fun piece => !piece.isEmpty)
        |>.map String.ofList

def splitAtLast? (separator : Char) (text : String) : Option (String × String) :=
  let reversed := text.toList.reverse
  if separator ∈ reversed then
    let last := reversed.takeWhile (· ≠ separator)
    let before := (reversed.dropWhile (· ≠ separator)).drop 1
    some (String.ofList before.reverse, String.ofList last.reverse)
  else
    none

def stripBrackets? (name : String) : Option String :=
  match name.toList.reverse with
  | ']' :: '[' :: inner => some (String.ofList inner.reverse)
  | _ => none

end ObjectFlow.Text
