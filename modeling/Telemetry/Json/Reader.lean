import Telemetry.Json.Token

namespace Telemetry.Json

inductive Frame where
  | array (before : List Json)
  | object (before : List (List Char × Json)) (key : List Char)

inductive Expected where
  | value (mayClose : Bool)
  | key (before : List (List Char × Json)) (mayClose : Bool)
  | colon (before : List (List Char × Json)) (key : List Char)
  | after (j : Json)

structure Reader where
  expected : Expected
  frames : List Frame

namespace Reader

def start : Reader := ⟨.value false, []⟩

def step (r : Reader) (token : Token) : Option Reader :=
  match r.expected, token, r.frames with
  | .value _, .scalar j, frames => some ⟨.after j, frames⟩
  | .value _, .string s, frames => some ⟨.after (.string s), frames⟩
  | .value _, .openArray, frames => some ⟨.value true, .array [] :: frames⟩
  | .value _, .openObject, frames => some ⟨.key [] true, frames⟩
  | .value true, .closeArray, .array [] :: frames => some ⟨.after (.array []), frames⟩
  | .key before _, .string s, frames => some ⟨.colon before s, frames⟩
  | .key [] true, .closeObject, frames => some ⟨.after (.object []), frames⟩
  | .colon before key, .colon, frames => some ⟨.value false, .object before key :: frames⟩
  | .after j, .comma, .array before :: frames => some ⟨.value false, .array (j :: before) :: frames⟩
  | .after j, .closeArray, .array before :: frames =>
    some ⟨.after (.array (j :: before).reverse), frames⟩
  | .after j, .comma, .object before key :: frames => some ⟨.key ((key, j) :: before) false, frames⟩
  | .after j, .closeObject, .object before key :: frames =>
    some ⟨.after (.object ((key, j) :: before).reverse), frames⟩
  | _, _, _ => none

def finish? (r : Reader) : Option Json :=
  match r.expected, r.frames with
  | .after j, [] => some j
  | _, _ => none

end Reader

def parse? (text : List UInt8) : Option Json := do
  let tokens ← Token.scan text
  let reader ← tokens.foldlM Reader.step Reader.start
  reader.finish?

end Telemetry.Json
