import Telemetry.Json.Reader
import Telemetry.Json.Text

namespace Telemetry.Json

structure Members where
  byPosition : Bool
  given : List (String × Json)

namespace Members

def unambiguous (known : List String) (given : List (String × Json)) : Bool :=
  known.all fun name => (given.filter fun m => m.1 == name).length ≤ 1

def ofJson? (known : List String) : Json → Option Members
  | .object ms => do
    let given ← ms.mapM fun (k, j) => (decodeString? k).map fun cs => (String.ofList cs, j)
    if unambiguous known given then return ⟨false, given⟩ else none
  | .array items => if items.length ≤ known.length then some ⟨true, known.zip items⟩ else none
  | _ => none

def value? (m : Members) (name : String) : Option Json := m.given.lookup name

def required {α : Type} (m : Members) (name : String) (read : Json → Option α) : Option α :=
  (m.value? name).bind read

def optional {α : Type} (m : Members) (name : String) (read : Json → Option α) :
    Option (Option α) :=
  match m.value? name with
  | none => if m.byPosition then none else some none
  | some .null => some none
  | some j => (read j).map some

def withDefault {α : Type} (m : Members) (name : String) (default : α) (read : Json → Option α) :
    Option α :=
  match m.value? name with
  | none => some default
  | some j => read j

end Members

def string? : Json → Option String
  | .string lexeme => (decodeString? lexeme).map String.ofList
  | _ => none

def bool? : Json → Option Bool
  | .bool b => some b
  | _ => none

def natUpTo? (max : Nat) : Json → Option Nat
  | .number lexeme =>
    match numeral? lexeme with
    | some (.natural n) => if n ≤ max then some n else none
    | _ => none
  | _ => none

def nat? : Json → Option Nat := natUpTo? (UInt64.size - 1)

def double? : Json → Option Double
  | .number lexeme =>
    (numeral? lexeme).map fun
      | .natural n => .ofNat n
      | .negative n => .ofInt n
      | .double x => x
  | _ => none

def list? {α : Type} (read : Json → Option α) : Json → Option (List α)
  | .array items => items.mapM read
  | _ => none

def orNull? {α : Type} (read : Json → Option α) : Json → Option (Option α)
  | .null => some none
  | j => (read j).map some

def case? {α : Type} (isUnit : Json → Bool) (cases : List (String × α)) : Json → Option α
  | .string lexeme => (decodeString? lexeme).bind fun cs => cases.lookup (String.ofList cs)
  | .object [(k, j)] =>
    if isUnit j then (decodeString? k).bind fun cs => cases.lookup (String.ofList cs) else none
  | _ => none

def isNull : Json → Bool
  | .null => true
  | _ => false

def isNothing : Json → Bool
  | .null | .object [] => true
  | _ => false

mutual

def sound : Json → Bool
  | .null | .bool _ => true
  | .number lexeme => (numeral? lexeme).isSome
  | .string lexeme => (decodeString? lexeme).isSome
  | .array items => soundItems items
  | .object ms => soundMembers ms

def soundItems : List Json → Bool
  | [] => true
  | j :: js => j.sound && soundItems js

def soundMembers : List (List Char × Json) → Bool
  | [] => true
  | (k, j) :: ms => (decodeString? k).isSome && j.sound && soundMembers ms

end

def maxDepth : Nat := 127

def int64? (lexeme : List Char) : Option Int :=
  match Token.takeNumber lexeme with
  | some (_, []) =>
    match numeral? lexeme with
    | some (.natural n) => if n < signLimit then some n else none
    | some (.negative n) => some n
    | _ => none
  | _ => none

end Telemetry.Json
