import Mathlib.Data.Option.Basic
import Telemetry.Resolution

/-!
What is shown for a data number, by precedence: a table comes before a calibration, and a print
format is for what neither of them settled. `Unformatted` and `Shown` are the rules, and resolving
follows them to the letter.
-/

namespace Telemetry

namespace Value

inductive IntegerView : Value → Int64 → Prop where
  | unsigned (n : UInt64) : IntegerView (.unsigned n) n.toInt64
  | signed (n : Int64) : IntegerView (.signed n) n
  | float (x : Double) : IntegerView (.float x) (.ofInt x.toInt64)
  | no : IntegerView (.bool false) 0
  | yes : IntegerView (.bool true) 1

inductive DoubleView : Value → Double → Prop where
  | unsigned (n : UInt64) : DoubleView (.unsigned n) (.ofNat n.toNat)
  | signed (n : Int64) : DoubleView (.signed n) (.ofInt n.toInt)
  | float (x : Double) : DoubleView (.float x) x
  | no : DoubleView (.bool false) (.ofNat 0)
  | yes : DoubleView (.bool true) (.ofNat 1)

variable {dn : Value}

theorem isNumeric_eq_false_iff :
    dn.isNumeric = false ↔ (∃ s, dn = .text s) ∨ ∃ c, dn = .clock c := by
  cases dn <;> simp [isNumeric]

theorem integer?_eq_some_iff {n : Int64} : dn.integer? = some n ↔ dn.IntegerView n := by
  constructor
  · intro h
    cases dn with
    | bool b => cases b <;> cases h <;> constructor
    | text s => cases h
    | clock c => cases h
    | unsigned m | signed m | float m =>
      cases h
      constructor
  · rintro (_ | _ | _ | _ | _) <;> rfl

theorem double?_eq_some_iff {x : Double} : dn.double? = some x ↔ dn.DoubleView x := by
  constructor
  · intro h
    cases dn with
    | bool b => cases b <;> cases h <;> constructor
    | text s => cases h
    | clock c => cases h
    | unsigned m | signed m | float m =>
      cases h
      constructor
  · rintro (_ | _ | _ | _ | _) <;> rfl

end Value

namespace Resolution

structure LookedUp (attrs : Attributes) (dn : Value) (table : Enumeration) : Prop where
  numeric : dn.isNumeric = true
  table : attrs.lookup = some table

structure Calibrated (attrs : Attributes) (dn : Value) (c : Calibration) : Prop where
  numeric : dn.isNumeric = true
  noTable : attrs.lookup = none
  calibration : attrs.calibration = some c

def Computes (calculator : Option Calculator) (c : Calibration) (dn : Value) (y : Double) : Prop :=
  ∃ compute x, calculator = some compute ∧ dn.DoubleView x ∧ compute c x = .ok y

section Rules

variable (calculator : Option Calculator) (attrs : Attributes) (dn : Value)

inductive Unformatted : Value → Prop where
  | symbol {table n s} : LookedUp attrs dn table → dn.IntegerView n →
      table.lookup n.toInt = some s → Unformatted (.text s)
  | unnamed {table} : LookedUp attrs dn table →
      (∀ n s, dn.IntegerView n → table.lookup n.toInt ≠ some s) →
      Unformatted (.text dn.display)
  | computed {c y} : Calibrated attrs dn c → Computes calculator c dn y → Unformatted (.float y)
  | uncomputed {c} : Calibrated attrs dn c → (∀ y, ¬ Computes calculator c dn y) → Unformatted dn
  | unattributed : attrs.lookup = none → attrs.calibration = none → Unformatted dn
  | text {s} : dn = .text s → Unformatted dn
  | clock {c} : dn = .clock c → Unformatted dn

end Rules

variable {calculator : Option Calculator} {attrs : Attributes} {dn u v : Value}
  {table : Enumeration} {c : Calibration} {y : Double}

theorem resolve_of_lookedUp (h : LookedUp attrs dn table) :
    resolve calculator attrs dn = ofEnumeration table dn := by
  simp [resolve, h.numeric, h.table]

theorem resolve_of_computes (h : Calibrated attrs dn c) (hy : Computes calculator c dn y) :
    resolve calculator attrs dn = .calibrated y := by
  obtain ⟨compute, x, rfl, hx, hcompute⟩ := hy
  simp [resolve, ofCalibration, h.numeric, h.noTable, h.calibration,
    Value.double?_eq_some_iff.mpr hx, hcompute]

theorem resolve_of_not_computes (h : Calibrated attrs dn c)
    (hy : ∀ y, ¬ Computes calculator c dn y) : ∃ e, resolve calculator attrs dn = .failed e := by
  simp only [resolve, h.numeric, h.noTable, h.calibration, if_true, ofCalibration]
  split
  next compute x hx =>
    cases hcompute : compute c x with
    | ok y => exact absurd ⟨compute, x, rfl, Value.double?_eq_some_iff.mp hx, hcompute⟩ (hy y)
    | error e => exact ⟨e, rfl⟩
  next => exact ⟨_, rfl⟩

theorem resolve_of_unattributed
    (h : attrs.lookup = none ∧ attrs.calibration = none ∨ dn.isNumeric = false) :
    resolve calculator attrs dn = .unchanged := by
  rcases h with ⟨ht, hc⟩ | hn
  · simp [resolve, ht, hc]
  · simp [resolve, hn]

theorem lookedUp_or_calibrated_or (attrs : Attributes) (dn : Value) :
    (∃ table, LookedUp attrs dn table) ∨ (∃ c, Calibrated attrs dn c) ∨
      (attrs.lookup = none ∧ attrs.calibration = none ∨ dn.isNumeric = false) := by
  cases hn : dn.isNumeric with
  | false => exact .inr (.inr (.inr rfl))
  | true =>
    cases ht : attrs.lookup with
    | some table => exact .inl ⟨table, hn, ht⟩
    | none =>
      cases hc : attrs.calibration with
      | some c => exact .inr (.inl ⟨c, hn, ht, hc⟩)
      | none => exact .inr (.inr (.inl ⟨rfl, rfl⟩))

theorem symbol_eq_none_iff : (dn.integer?.bind fun n => table.lookup n.toInt) = none ↔
    ∀ n s, dn.IntegerView n → table.lookup n.toInt ≠ some s := by
  rw [Option.bind_eq_none_iff]
  simp only [Option.eq_none_iff_forall_ne_some, Value.integer?_eq_some_iff]
  exact forall_congr' fun n => forall_comm

theorem value_of_unformatted (h : Unformatted calculator attrs dn u) :
    (resolve calculator attrs dn).value dn = u := by
  cases h with
  | symbol ht hn hs =>
    rw [resolve_of_lookedUp ht]
    simp [ofEnumeration, value, Value.integer?_eq_some_iff.mpr hn, hs]
  | unnamed ht hnone =>
    rw [resolve_of_lookedUp ht]
    simp [ofEnumeration, value, symbol_eq_none_iff.mpr hnone]
  | computed hc hy => rw [resolve_of_computes hc hy, value]
  | uncomputed hc hnone =>
    obtain ⟨e, he⟩ := resolve_of_not_computes hc hnone
    rw [he, value]
  | unattributed ht hc => rw [resolve_of_unattributed (.inl ⟨ht, hc⟩), value]
  | text hs => rw [resolve_of_unattributed (.inr (by rw [hs]; rfl)), value]
  | clock hc => rw [resolve_of_unattributed (.inr (by rw [hc]; rfl)), value]

theorem exists_unformatted (calculator : Option Calculator) (attrs : Attributes) (dn : Value) :
    ∃ u, Unformatted calculator attrs dn u := by
  rcases lookedUp_or_calibrated_or attrs dn with ⟨table, ht⟩ | ⟨c, hc⟩ | ⟨ht, hc⟩ | hn
  · cases hs : dn.integer?.bind fun n => table.lookup n.toInt with
    | none => exact ⟨_, .unnamed ht (symbol_eq_none_iff.mp hs)⟩
    | some s =>
      obtain ⟨n, hn, hs⟩ := Option.bind_eq_some_iff.mp hs
      exact ⟨_, .symbol ht (Value.integer?_eq_some_iff.mp hn) hs⟩
  · by_cases hy : ∃ y, Computes calculator c dn y
    · obtain ⟨y, hy⟩ := hy
      exact ⟨_, .computed hc hy⟩
    · exact ⟨_, .uncomputed hc (not_exists.mp hy)⟩
  · exact ⟨_, .unattributed ht hc⟩
  · rcases Value.isNumeric_eq_false_iff.mp hn with ⟨s, hs⟩ | ⟨c, hc⟩
    · exact ⟨_, .text hs⟩
    · exact ⟨_, .clock hc⟩

theorem value_eq_iff :
    (resolve calculator attrs dn).value dn = u ↔ Unformatted calculator attrs dn u := by
  refine ⟨?_, value_of_unformatted⟩
  rintro rfl
  obtain ⟨u, hu⟩ := exists_unformatted calculator attrs dn
  rwa [value_of_unformatted hu]

theorem shown_of_not_isFormatted {r : Resolution}
    (h : attrs.printFormat = none ∨ r.isFormatted = false) : r.shown attrs dn = r.value dn := by
  unfold shown
  rcases h with h | h
  · rw [h]
  · cases attrs.printFormat <;> simp [h]

namespace Doubling

def refused : Calculator := fun c _ => .error (.computation c.name "out of range")

def volts : Calibration := { name := "volts" }

def format : PrintFormat := ⟨"%f", [.placeholder ⟨0, {}, none, none, .fixed⟩]⟩

def attributes : Attributes := { calibration := some volts, printFormat := some format }

end Doubling

end Resolution
end Telemetry
