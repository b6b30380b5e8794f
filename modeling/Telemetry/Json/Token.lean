import Telemetry.Json.Text

namespace Telemetry.Json

inductive Token where
  | openArray
  | closeArray
  | openObject
  | closeObject
  | colon
  | comma
  | string (lexeme : List Char)
  | scalar (j : Json)
deriving Repr

namespace Token

def isSpace (c : Char) : Bool := c == ' ' || c == '\n' || c == '\t' || c == '\r'

def isHexDigit (c : Char) : Bool :=
  c.isDigit || ('a' ≤ c && c ≤ 'f') || ('A' ≤ c && c ≤ 'F')

def isEscape (c : Char) : Bool := ['"', '\\', '/', 'b', 'f', 'n', 'r', 't'].contains c

def takeString : List Char → Option (List Char × List Char)
  | [] => none
  | '"' :: rest => some ([], rest)
  | '\\' :: 'u' :: a :: b :: c :: d :: rest =>
    if [a, b, c, d].all isHexDigit then
      (takeString rest).map fun (cs, rest) => ('\\' :: 'u' :: a :: b :: c :: d :: cs, rest)
    else none
  | '\\' :: c :: rest =>
    if isEscape c then (takeString rest).map fun (cs, rest) => ('\\' :: c :: cs, rest) else none
  | c :: rest =>
    if c = '\\' ∨ c.toNat < 0x20 then none
    else (takeString rest).map fun (cs, rest) => (c :: cs, rest)

def takeDigits (cs : List Char) : Option (List Char × List Char) :=
  match cs.takeWhile Char.isDigit with
  | [] => none
  | ds => some (ds, cs.dropWhile Char.isDigit)

def takeWhole : List Char → Option (List Char × List Char)
  | '0' :: rest => some (['0'], rest)
  | cs => takeDigits cs

def takeFraction : List Char → Option (List Char × List Char)
  | '.' :: rest => (takeDigits rest).map fun (ds, rest) => ('.' :: ds, rest)
  | cs => some ([], cs)

def takeExponent : List Char → Option (List Char × List Char)
  | c :: rest =>
    if c = 'e' ∨ c = 'E' then
      match rest with
      | '+' :: rest => (takeDigits rest).map fun (ds, rest) => (c :: '+' :: ds, rest)
      | '-' :: rest => (takeDigits rest).map fun (ds, rest) => (c :: '-' :: ds, rest)
      | rest => (takeDigits rest).map fun (ds, rest) => (c :: ds, rest)
    else some ([], c :: rest)
  | [] => some ([], [])

def takeMagnitude (cs : List Char) : Option (List Char × List Char) := do
  let (whole, cs) ← takeWhole cs
  let (fraction, cs) ← takeFraction cs
  let (exponent, cs) ← takeExponent cs
  return (whole ++ fraction ++ exponent, cs)

def takeNumber : List Char → Option (List Char × List Char)
  | '-' :: rest => (takeMagnitude rest).map fun (ds, rest) => ('-' :: ds, rest)
  | cs => takeMagnitude cs

def lexemeOf (bytes : List Char) : List Char :=
  match String.fromUTF8? ⟨(bytes.map fun b => UInt8.ofNat b.toNat).toArray⟩ with
  | some text => text.toList
  | none => meaningless

def take : List Char → Option (Token × List Char)
  | '[' :: rest => some (openArray, rest)
  | ']' :: rest => some (closeArray, rest)
  | '\x7b' :: rest => some (openObject, rest)
  | '\x7d' :: rest => some (closeObject, rest)
  | ':' :: rest => some (colon, rest)
  | ',' :: rest => some (comma, rest)
  | '"' :: rest => (takeString rest).map fun (cs, rest) => (string (lexemeOf cs), rest)
  | 't' :: 'r' :: 'u' :: 'e' :: rest => some (scalar (.bool true), rest)
  | 'f' :: 'a' :: 'l' :: 's' :: 'e' :: rest => some (scalar (.bool false), rest)
  | 'n' :: 'u' :: 'l' :: 'l' :: rest => some (scalar .null, rest)
  | cs => (takeNumber cs).map fun (ds, rest) => (scalar (.number ds), rest)

def scanUpTo : (limit : Nat) → List Char → Option (List Token)
  | limit, cs =>
    match cs.dropWhile isSpace, limit with
    | [], _ => some []
    | _, 0 => none
    | cs, limit + 1 => do
      let (token, rest) ← take cs
      return token :: (← scanUpTo limit rest)

def scan (bytes : List UInt8) : Option (List Token) :=
  scanUpTo bytes.length (bytes.map fun b => Char.ofNat b.toNat)

end Token
end Telemetry.Json
