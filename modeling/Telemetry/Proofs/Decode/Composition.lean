import Telemetry.Decode.Field

namespace Telemetry.Decode

variable {α β : Type} {P : List α → Prop}

structure Composable (P : List α → Prop) : Prop where
  nil : P []
  append : ∀ {xs ys}, P xs → P ys → P (xs ++ ys)

theorem Composable.flatten (hP : Composable P) {xss : List (List α)} (h : ∀ xs ∈ xss, P xs) :
    P xss.flatten := by
  induction xss with
  | nil => exact hP.nil
  | cons xs xss ih =>
    exact hP.append (h xs List.mem_cons_self) (ih fun ys hy => h ys (List.mem_cons_of_mem _ hy))

theorem Composable.flatMap (hP : Composable P) {f : β → List α} {xs : List β}
    (h : ∀ x ∈ xs, P (f x)) : P (xs.flatMap f) := by
  rw [List.flatMap_def]
  exact hP.flatten (List.forall_mem_map.mpr h)

def Step.Gives (P : List α → Prop) (step : Step α) : Prop := ∀ s, P (step s).items

namespace Step

variable {a b : Step α} {steps : List (Step α)}

theorem gives_tell {items : List α} (h : P items) : (tell items).Gives P := fun _ => h

theorem Gives.andThen (hP : Composable P) (ha : a.Gives P) (hb : b.Gives P) :
    (a.andThen b).Gives P := fun s => hP.append (ha s) (hb _)

theorem Gives.between (hP : Composable P) (ha : a.Gives P) {opening closing : List α}
    (ho : P opening) (hc : P closing) :
    ((tell opening).andThen (a.andThen (tell closing))).Gives P :=
  (gives_tell ho).andThen hP (ha.andThen hP (gives_tell hc))

theorem Gives.whereData (ha : a.Gives P) {items : List α} (hi : P items) :
    (a.whereData items).Gives P := by
  intro s
  unfold Step.whereData
  split
  next => exact ha s
  next => exact hi

theorem Gives.mapItems {Q : List β → Prop} (ha : a.Gives P) {f : List α → List β}
    (hf : ∀ items, P items → Q (f items)) : (a.mapItems f).Gives Q := fun s => hf _ (ha s)

theorem gives_sequence (hP : Composable P) (h : ∀ a ∈ steps, a.Gives P) :
    (sequence steps).Gives P :=
  sequence_of_forall (gives_tell hP.nil) (fun ha hb => ha.andThen hP hb) h

theorem gives_whileData (hP : Composable P) {cut : Nat → α} (hc : ∀ n, P [cut n])
    (h : ∀ a ∈ steps, a.Gives P) : (whileData cut steps).Gives P :=
  whileData_of_forall (gives_tell hP.nil) (fun ha hb => ha.andThen hP hb)
    (fun n ha => ha.whereData (hc n)) h

end Step

namespace Laps

variable {lap : Nat → Step α}

theorem gives_counted (hP : Composable P) (h : ∀ index, (lap index).Gives P) (count index : Nat)
    (s : State) : P (counted lap count index s).runs.flatten := by
  induction count generalizing index s with
  | zero => exact hP.nil
  | succ count ih =>
    rw [counted]
    split
    next => exact hP.append (h index s) (ih _ _)
    next => exact hP.nil

theorem gives_untilExhausted (hP : Composable P) (h : ∀ index, (lap index).Gives P) (index : Nat)
    (s : State) : P (untilExhausted lap index s).runs.flatten := by
  fun_induction untilExhausted lap index s with
  | case1 index s hm y hless ih => exact hP.append (h index s) ih
  | case2 index s hm y hless => exact hP.append (h index s) hP.nil
  | case3 index s hm => exact hP.nil

theorem gives_run (hP : Composable P) (h : ∀ index, (lap index).Gives P) (count : Option Nat)
    (s : State) : P (run lap count s).runs.flatten := by
  cases count with
  | none => exact gives_untilExhausted hP h 0 s
  | some n => exact gives_counted hP h n 0 s

end Laps

end Telemetry.Decode
