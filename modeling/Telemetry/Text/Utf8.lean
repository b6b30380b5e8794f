namespace Telemetry.Text.Utf8

def replacement : Char := Char.ofNat 0xFFFD

structure Pending where
  code : Nat
  after : Nat
  low : Nat
  high : Nat

abbrev Fed := List Char × Option Pending

def start (b : Nat) : Fed :=
  if b < 0x80 then ([Char.ofNat b], none)
  else if b < 0xC2 then ([replacement], none)
  else if b < 0xE0 then ([], some ⟨b % 32, 0, 0x80, 0xBF⟩)
  else if b = 0xE0 then ([], some ⟨0, 1, 0xA0, 0xBF⟩)
  else if b = 0xED then ([], some ⟨13, 1, 0x80, 0x9F⟩)
  else if b < 0xF0 then ([], some ⟨b % 16, 1, 0x80, 0xBF⟩)
  else if b = 0xF0 then ([], some ⟨0, 2, 0x90, 0xBF⟩)
  else if b < 0xF4 then ([], some ⟨b % 8, 2, 0x80, 0xBF⟩)
  else if b = 0xF4 then ([], some ⟨4, 2, 0x80, 0x8F⟩)
  else ([replacement], none)

def feed : Option Pending → Nat → Fed
  | none, b => start b
  | some p, b =>
    if p.low ≤ b ∧ b ≤ p.high then
      let code := p.code * 64 + b % 64
      match p.after with
      | 0 => ([Char.ofNat code], none)
      | after + 1 => ([], some ⟨code, after, 0x80, 0xBF⟩)
    else
      let fed := start b
      (replacement :: fed.1, fed.2)

def decodeFrom (pending : Option Pending) : List UInt8 → List Char
  | [] => if pending.isSome then [replacement] else []
  | b :: rest =>
    let fed := feed pending b.toNat
    fed.1 ++ decodeFrom fed.2 rest

def decode (bytes : List UInt8) : List Char := decodeFrom none bytes

def size (c : Char) : Nat := c.utf8Size

def length : List Char → Nat
  | [] => 0
  | c :: cs => size c + length cs

def takeBytes : (n : Nat) → List Char → List Char
  | _, [] => []
  | n, c :: cs => if size c ≤ n then c :: takeBytes (n - size c) cs else []

@[simp] theorem length_nil : length [] = 0 := rfl

@[simp] theorem length_cons (c : Char) (cs : List Char) :
    length (c :: cs) = size c + length cs := rfl

@[simp] theorem length_append (cs ds : List Char) : length (cs ++ ds) = length cs + length ds := by
  induction cs with
  | nil => simp
  | cons c cs ih => simp [ih, Nat.add_assoc]

theorem size_pos (c : Char) : 0 < size c := c.utf8Size_pos

theorem takeBytes_append (cs ds : List Char) : takeBytes (length cs) (cs ++ ds) = cs := by
  induction cs with
  | nil =>
    cases ds with
    | nil => rfl
    | cons d ds => have := size_pos d; simp [takeBytes]; omega
  | cons c cs ih => simp [takeBytes, ih]

end Telemetry.Text.Utf8
