import Mathlib.Data.List.Basic
import Telemetry.Handling

namespace Telemetry.Handling.Pool

inductive Step (p : Pool) : Action → Pool → Prop where
  | dispatch {job : Nat} (fresh : p.isRunning job = false) :
    Step p (.dispatch job) { p with running := (job, p.openGroup) :: p.running }
  | complete {job : Nat} (running : p.isRunning job = true) :
    Step p (.complete job) { p with running := p.running.filter fun j => j.1 != job }
  | startWait {wait : Nat} (idle : p.waiting.lookup wait = none) :
    Step p (.startWait wait)
      { p with openGroup := p.openGroup + 1, waiting := (wait, p.openGroup) :: p.waiting }
  | endWait {wait group : Nat} (taken : p.waiting.lookup wait = some group)
      (done : p.isHeld group = false) :
    Step p (.endWait wait) { p with waiting := p.waiting.filter fun w => w.1 != wait }

theorem step_of_step? {p q : Pool} {a : Action} (h : p.step? a = some q) : Step p a q := by
  cases a with
  | dispatch job =>
    simp only [step?] at h
    split at h
    next => cases h
    next hfresh =>
      cases h
      exact .dispatch (Bool.eq_false_iff.mpr hfresh)
  | complete job =>
    simp only [step?] at h
    split at h
    next hrunning =>
      cases h
      exact .complete hrunning
    next => cases h
  | startWait wait =>
    simp only [step?] at h
    split at h
    next => cases h
    next hidle =>
      cases h
      exact .startWait (Option.not_isSome_iff_eq_none.mp hidle)
  | endWait wait =>
    simp only [step?] at h
    split at h
    next => cases h
    next group htaken =>
      split at h
      next => cases h
      next hdone =>
        cases h
        exact .endWait htaken (Bool.eq_false_iff.mpr hdone)

theorem run?_append (p : Pool) (as bs : List Action) :
    p.run? (as ++ bs) = (p.run? as).bind fun q => q.run? bs := by
  induction as generalizing p with
  | nil => rfl
  | cons a as ih =>
    simp only [List.cons_append, run?, Option.bind_assoc]
    exact Option.bind_congr fun q _ => ih q

theorem run?_append_eq_some {p r : Pool} {as bs : List Action} :
    p.run? (as ++ bs) = some r ↔ ∃ q, p.run? as = some q ∧ q.run? bs = some r := by
  rw [run?_append, Option.bind_eq_some_iff]

theorem run?_cons_eq_some {p r : Pool} {a : Action} {as : List Action} :
    p.run? (a :: as) = some r ↔ ∃ q, p.step? a = some q ∧ q.run? as = some r := by
  rw [run?, Option.bind_eq_some_iff]

theorem holds_of_run? (holds : Pool → Prop) {as : List Action}
    (hstep : ∀ p q a, a ∈ as → Step p a q → holds p → holds q) {p q : Pool}
    (h : p.run? as = some q) (hp : holds p) : holds q := by
  induction as generalizing p with
  | nil =>
    cases h
    exact hp
  | cons a as ih =>
    obtain ⟨r, hr, hrest⟩ := run?_cons_eq_some.mp h
    apply ih (fun p q b hb => hstep p q b (.tail _ hb)) hrest
    exact hstep p r a (.head _) (step_of_step? hr) hp

section Preservation

variable {p q : Pool} {a : Action} {as : List Action}

theorem lookup_filter_of_ne {v w : Nat} (h : w ≠ v) (waiting : List (Nat × Nat)) :
    (waiting.filter fun x => x.1 != v).lookup w = waiting.lookup w := by
  induction waiting with
  | nil => rfl
  | cons x xs ih =>
    obtain ⟨u, g⟩ := x
    by_cases hu : u = v
    · have hw : (w == u) = false := beq_false_of_ne fun e => h (e.trans hu)
      simp [hu, List.lookup_cons, ih, hu ▸ hw]
    · simp [hu, List.lookup_cons, ih]

theorem Step.mem_running {job group : Nat} (h : Step p a q) (ha : a ≠ .complete job)
    (hj : (job, group) ∈ p.running) : (job, group) ∈ q.running := by
  cases h with
  | dispatch => exact List.mem_cons_of_mem _ hj
  | @complete other =>
    have hne : job ≠ other := fun e => ha (congrArg Action.complete e.symm)
    exact List.mem_filter.mpr ⟨hj, bne_iff_ne.mpr hne⟩
  | startWait => exact hj
  | endWait => exact hj

theorem Step.openGroup_eq (h : Step p a q) (ha : ∀ wait, a ≠ .startWait wait) :
    q.openGroup = p.openGroup := by
  cases h with
  | @startWait wait => exact absurd rfl (ha wait)
  | dispatch | complete | endWait => rfl

theorem Step.lookup_waiting {wait group : Nat} (h : Step p a q) (ha : a ≠ .endWait wait)
    (hw : p.waiting.lookup wait = some group) : q.waiting.lookup wait = some group := by
  cases h with
  | dispatch => exact hw
  | complete => exact hw
  | @startWait other idle =>
    have hne : wait ≠ other := by
      rintro rfl
      rw [idle] at hw
      cases hw
    rw [List.lookup_cons, beq_false_of_ne hne]
    exact hw
  | @endWait other =>
    have hne : wait ≠ other := fun e => ha (congrArg Action.endWait e.symm)
    rwa [lookup_filter_of_ne hne]

theorem mem_running_of_run? {job group : Nat} (h : p.run? as = some q)
    (has : Action.complete job ∉ as) (hj : (job, group) ∈ p.running) : (job, group) ∈ q.running :=
  holds_of_run? (fun p => (job, group) ∈ p.running)
    (fun _ _ _ ha hstep => hstep.mem_running fun e => has (e ▸ ha)) h hj

theorem lookup_waiting_of_run? {wait group : Nat} (h : p.run? as = some q)
    (has : Action.endWait wait ∉ as) (hw : p.waiting.lookup wait = some group) :
    q.waiting.lookup wait = some group :=
  holds_of_run? (fun p => p.waiting.lookup wait = some group)
    (fun _ _ _ ha hstep => hstep.lookup_waiting fun e => has (e ▸ ha)) h hw

end Preservation

theorem complete_of_endWait {p q : Pool} {job wait : Nat} {as : List Action}
    (h : p.run? (.startWait wait :: as ++ [.endWait wait]) = some q) (has : Action.endWait wait ∉ as)
    (hj : (job, p.openGroup) ∈ p.running) : Action.complete job ∈ as := by
  by_contra hnot
  obtain ⟨r, hr, hend⟩ := run?_append_eq_some.mp h
  obtain ⟨p', hstart, hmid⟩ := run?_cons_eq_some.mp hr
  obtain ⟨q', hq', -⟩ := run?_cons_eq_some.mp hend
  have htaken : p'.waiting.lookup wait = some p.openGroup := by
    cases step_of_step? hstart
    exact List.lookup_cons_self
  have hj' : (job, p.openGroup) ∈ p'.running := (step_of_step? hstart).mem_running nofun hj
  have htaken' := lookup_waiting_of_run? hmid has htaken
  have hheld : r.isHeld p.openGroup = true :=
    List.any_eq_true.mpr ⟨_, mem_running_of_run? hmid hnot hj', beq_self_eq_true p.openGroup⟩
  cases step_of_step? hq' with
  | @endWait _ group taken done =>
    cases htaken'.symm.trans taken
    rw [hheld] at done
    cases done

theorem complete_of_endWait_mem {p q : Pool} {job wait : Nat} {as : List Action}
    (h : p.run? (.startWait wait :: as) = some q) (hend : Action.endWait wait ∈ as)
    (hj : (job, p.openGroup) ∈ p.running) : Action.complete job ∈ as := by
  obtain ⟨first, rest, rfl, hfirst⟩ := List.eq_append_cons_of_mem hend
  have hsplit : Action.startWait wait :: (first ++ .endWait wait :: rest) =
      (Action.startWait wait :: first ++ [.endWait wait]) ++ rest := by
    simp only [List.cons_append, List.append_assoc, List.nil_append]
  rw [hsplit] at h
  obtain ⟨r, hr, -⟩ := run?_append_eq_some.mp h
  exact List.mem_append_left _ (complete_of_endWait hr hfirst hj)

theorem complete_or_waiting {p q : Pool} {job wait : Nat} {mid rest : List Action}
    (h : p.run? (mid ++ .startWait wait :: rest ++ [.endWait wait]) = some q)
    (hj : (job, p.openGroup) ∈ p.running) :
    Action.complete job ∈ mid ++ rest ∨
      ∃ m₁ other m₂, mid = m₁ ++ .startWait other :: m₂ ∧ (∀ w, Action.startWait w ∉ m₁) ∧
        Action.endWait other ∉ m₂ ++ .startWait wait :: rest := by
  induction mid generalizing p with
  | nil =>
    have hcomplete := complete_of_endWait_mem h (List.mem_append_right _ (.head _)) hj
    left
    simpa using hcomplete
  | cons a mid ih =>
    obtain ⟨r, hr, hrun⟩ := run?_cons_eq_some.mp h
    by_cases hdone : a = .complete job
    · exact .inl (hdone ▸ .head _)
    have hj' : (job, p.openGroup) ∈ r.running := (step_of_step? hr).mem_running hdone hj
    by_cases hstart : ∃ other, a = .startWait other
    · -- this wait takes the job's group, and either returns within the run or is under way
      obtain ⟨other, rfl⟩ := hstart
      by_cases hend : Action.endWait other ∈ mid ++ .startWait wait :: rest
      · have hcomplete := complete_of_endWait_mem h (List.mem_append_left _ hend) hj
        left
        simpa using hcomplete
      · exact .inr ⟨[], other, mid, rfl, fun _ => List.not_mem_nil, hend⟩
    · have hopen : r.openGroup = p.openGroup :=
        (step_of_step? hr).openGroup_eq fun w e => hstart ⟨w, e⟩
      rcases ih hrun (hopen ▸ hj') with hmem | ⟨m₁, other, m₂, hmid, hnone, hend⟩
      · exact .inl (.tail _ hmem)
      · refine .inr ⟨a :: m₁, other, m₂, by rw [hmid, List.cons_append], fun w hw => ?_, hend⟩
        rcases List.mem_cons.mp hw with e | hw
        · exact hstart ⟨w, e.symm⟩
        · exact hnone w hw

/-- When a wait returns, a job handed over before it began is done, unless another wait has taken
the job's group in between and has not returned. -/
theorem covered_unless_overlapped {q : Pool} {job wait : Nat} {before mid rest : List Action}
    (h : ({} : Pool).run? (before ++ .dispatch job :: mid ++ .startWait wait :: rest ++
      [.endWait wait]) = some q) :
    Action.complete job ∈ mid ++ rest ∨
      ∃ m₁ other m₂, mid = m₁ ++ .startWait other :: m₂ ∧ (∀ w, Action.startWait w ∉ m₁) ∧
        Action.endWait other ∉ m₂ ++ .startWait wait :: rest := by
  have hsplit : before ++ Action.dispatch job :: mid ++ .startWait wait :: rest ++ [.endWait wait] =
      before ++ (Action.dispatch job :: (mid ++ .startWait wait :: rest ++ [.endWait wait])) := by
    simp only [List.append_assoc, List.cons_append]
  rw [hsplit] at h
  obtain ⟨p, -, hp⟩ := run?_append_eq_some.mp h
  obtain ⟨p', hdispatch, hrun⟩ := run?_cons_eq_some.mp hp
  apply complete_or_waiting hrun
  cases step_of_step? hdispatch
  exact .head _

theorem covered_unless_overlapped_single :
    let rest := [Action.complete 1, .complete 0]
    ({} : Pool).run? ([Action.dispatch 1] ++ .dispatch 0 :: [] ++ .startWait 0 :: rest ++
      [.endWait 0]) = some { openGroup := 1 } ∧ Action.complete 0 ∈ [] ++ rest := by
  intro rest
  have hrun : ({} : Pool).run? ([Action.dispatch 1] ++ .dispatch 0 :: [] ++ .startWait 0 :: rest ++
      [.endWait 0]) = some { openGroup := 1 } := rfl
  refine ⟨hrun, ?_⟩
  rcases covered_unless_overlapped hrun with h | ⟨m₁, other, m₂, hmid, -⟩
  · exact h
  · cases m₁ <;> cases hmid

/-- The second of two waits that overlap takes a fresh group and returns although the job that the
first one waits for still runs. -/
theorem not_covered_of_overlap :
    ¬ ∀ (before mid rest : List Action) (job wait : Nat),
      (({} : Pool).run? (before ++ .dispatch job :: mid ++ .startWait wait :: rest ++
        [.endWait wait])).isSome →
      Action.endWait wait ∉ rest → Action.complete job ∈ mid ++ rest := by
  intro h
  have hdone := h [] [.startWait 0] [] 0 1 (by decide) List.not_mem_nil
  cases hdone with
  | tail _ h => cases h

end Telemetry.Handling.Pool
