import Telemetry.Json.Text

namespace Telemetry.Json

def ofString (s : String) : Json := .string (encodeString s.toList)

def ofNat (n : Nat) : Json := .number (Number.digits n)

def ofInt (n : Int) : Json := .number (if n < 0 then '-' :: Number.digits n.natAbs
  else Number.digits n.natAbs)

def ofDouble (x : Double) : Json := if x.isFinite then .number x.jsonText.toList else .null

def ofOption {α : Type} (f : α → Json) : Option α → Json
  | none => .null
  | some a => f a

def record (members : List (String × Json)) : Json :=
  .object (members.map fun (k, j) => (encodeString k.toList, j))

structure Style where
  lineStart : Nat → List Char
  afterColon : List Char

def compact : Style := ⟨fun _ => [], []⟩

def pretty : Style := ⟨fun level => '\n' :: List.replicate (2 * level) ' ', [' ']⟩

def key (style : Style) (k : List Char) : List Char := '"' :: k ++ '"' :: ':' :: style.afterColon

mutual

def write (style : Style) (level : Nat) : Json → List Char
  | null => ['n', 'u', 'l', 'l']
  | bool b => if b then ['t', 'r', 'u', 'e'] else ['f', 'a', 'l', 's', 'e']
  | number lexeme => lexeme
  | string lexeme => '"' :: lexeme ++ ['"']
  | array [] => ['[', ']']
  | array (j :: js) =>
    '[' :: style.lineStart (level + 1) ++ write style (level + 1) j ++
      writeItems style (level + 1) js ++ style.lineStart level ++ [']']
  | object [] => ['\x7b', '\x7d']
  | object ((k, j) :: ms) =>
    '\x7b' :: style.lineStart (level + 1) ++ key style k ++ write style (level + 1) j ++
      writeMembers style (level + 1) ms ++ style.lineStart level ++ ['\x7d']

def writeItems (style : Style) (level : Nat) : List Json → List Char
  | [] => []
  | j :: js => ',' :: style.lineStart level ++ write style level j ++ writeItems style level js

def writeMembers (style : Style) (level : Nat) : List (List Char × Json) → List Char
  | [] => []
  | (k, j) :: ms =>
    ',' :: style.lineStart level ++ key style k ++ write style level j ++
      writeMembers style level ms

end

def text (style : Style) (j : Json) : String := String.ofList (j.write style 0)

end Telemetry.Json
