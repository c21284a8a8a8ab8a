/-!
Blank characters are those with the property White_Space. Texts are trimmed of them at their ends,
and cut into lines at line feeds.
-/
namespace JobLaunch.Text

/-- Whether a character has the property White_Space. -/
def isBlank (c : Char) : Bool :=
  let n := c.toNat
  (9 ≤ n && n ≤ 13) || n == 32 || n == 0x85 || n == 0xA0 || n == 0x1680
    || (0x2000 ≤ n && n ≤ 0x200A) || n == 0x2028 || n == 0x2029 || n == 0x202F || n == 0x205F
    || n == 0x3000

def trimFront (cs : List Char) : List Char := cs.dropWhile isBlank

def trim (cs : List Char) : List Char := (trimFront (trimFront cs).reverse).reverse

def trimmed (s : String) : String := String.ofList (trim s.toList)

def splitOn (separator : Char) : List Char → List (List Char)
  | [] => [[]]
  | c :: cs =>
    match splitOn separator cs with
    | piece :: pieces => if c = separator then [] :: piece :: pieces else (c :: piece) :: pieces
    | [] => [[c]]

def commaSeparated (s : String) : List String := (splitOn ',' s.toList).map String.ofList

def lines (s : String) : List String := (splitOn '\n' s.toList).map String.ofList

end JobLaunch.Text
