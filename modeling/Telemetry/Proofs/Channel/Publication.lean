import Mathlib.Data.List.Basic
import Mathlib.Data.List.Induction
import Telemetry.Channel.Transport

namespace Telemetry

def Candidate.channel? : Candidate → Option ChannelValue
  | .channel v => some v
  | .tag _ => none

def Candidate.tag? : Candidate → Option TimeTag
  | .channel _ => none
  | .tag t => some t

def Batch.values (b : Batch) : List (String × Value) := b.samples.map fun v => (v.channel, v.dn)

def Transport.recorded {σ : Type} (t : Transport σ) : Transport (σ × List Batch) where
  publish w b :=
    let (result, w') := t.publish w.1 b
    (result, w', w.2 ++ [b])

namespace Channelizer

structure Session where
  product : ProductIdentity
  candidates : List Candidate
deriving DecidableEq

namespace Session

def channels (x : Session) : List ChannelValue := x.candidates.filterMap Candidate.channel?

def tags (x : Session) : List TimeTag := x.candidates.filterMap Candidate.tag?

def values (x : Session) : List (String × Value) := x.channels.map fun c => (c.id, c.dn)

def batch (s : Setting) (x : Session) : Batch := s.batch x.product x.channels x.tags

end Session

def openedLast? : List Message → Option Session
  | .candidate v :: earlier =>
    (openedLast? earlier).map fun x => { x with candidates := x.candidates ++ [v] }
  | .start p :: _ => some ⟨p, []⟩
  | .finish :: _ | [] => none

def opened? (sent : List Message) : Option Session := openedLast? sent.reverse

/-- The sessions to be published, one for each end of an open product with channel values. -/
def due (messages : List Message) : List Session :=
  (List.range messages.length).filterMap fun i =>
    if messages[i]? = some .finish then
      (opened? (messages.take i)).filter fun x => !x.channels.isEmpty
    else none

def handleEach {σ : Type} (t : Transport σ) (s : Setting) (c : Channelizer) (w : σ)
    (messages : List Message) : Channelizer × σ :=
  messages.foldl (fun p m =>
    ((p.1.deliver t s p.2 m).channelizer, (p.1.deliver t s p.2 m).transport)) (c, w)

section Sessions

variable {sent : List Message}

theorem opened?_start (p : ProductIdentity) : opened? (sent ++ [.start p]) = some ⟨p, []⟩ := by
  simp [opened?, openedLast?]

theorem opened?_finish : opened? (sent ++ [.finish]) = none := by
  simp [opened?, openedLast?]

theorem opened?_candidate (v : Candidate) :
    opened? (sent ++ [.candidate v]) =
      (opened? sent).map fun x => { x with candidates := x.candidates ++ [v] } := by
  simp [opened?, openedLast?]

theorem opened?_eq_some_iff {x : Session} : opened? sent = some x ↔
    ∃ earlier, sent = earlier ++ .start x.product :: x.candidates.map .candidate := by
  constructor
  · intro h
    induction sent using List.reverseRecOn generalizing x with
    | nil => cases h
    | append_singleton sent m ih =>
      cases m with
      | start p =>
        rw [opened?_start, Option.some.injEq] at h
        subst h
        exact ⟨sent, rfl⟩
      | candidate v =>
        rw [opened?_candidate, Option.map_eq_some_iff] at h
        obtain ⟨y, hy, rfl⟩ := h
        obtain ⟨earlier, rfl⟩ := ih hy
        exact ⟨earlier, by simp⟩
      | finish =>
        rw [opened?_finish] at h
        cases h
  · rintro ⟨earlier, rfl⟩
    obtain ⟨p, candidates⟩ := x
    induction candidates using List.reverseRecOn with
    | nil => exact opened?_start p
    | append_singleton candidates v ih =>
      have hsplit : earlier ++ Message.start p :: (candidates ++ [v]).map .candidate =
          (earlier ++ .start p :: candidates.map .candidate) ++ [.candidate v] := by
        simp
      rw [hsplit, opened?_candidate, ih]
      rfl

theorem due_concat (m : Message) : due (sent ++ [m]) = due sent ++
    (if m = .finish then (opened? sent).filter fun x => !x.channels.isEmpty else none).toList := by
  unfold due
  rw [List.length_append, List.length_singleton, List.range_succ, List.filterMap_append]
  congr 1
  · apply List.filterMap_congr
    intro i hi
    have hlt : i < sent.length := List.mem_range.mp hi
    rw [List.getElem?_append_left hlt, List.take_append_of_le_length (Nat.le_of_lt hlt)]
  · simp only [List.filterMap_cons, List.filterMap_nil, List.getElem?_concat_length,
      List.take_left, Option.some.injEq]
    generalize (if m = .finish then (opened? sent).filter fun x => !x.channels.isEmpty
      else none) = last
    cases last <;> rfl

end Sessions

def ofSession : Option Session → Channelizer
  | none => {}
  | some x => { product := some x.product, channels := x.channels, tags := x.tags }

theorem handle_ofSession (s : Setting) (sent : List Message) (m : Message) :
    ((ofSession (opened? sent)).handle s m).2 = ofSession (opened? (sent ++ [m])) := by
  cases m with
  | start p => rw [opened?_start]; rfl
  | candidate v =>
    rw [opened?_candidate]
    cases opened? sent with
    | none => rfl
    | some x =>
      cases v <;> simp [handle, add, ofSession, Session.channels, Session.tags,
        Candidate.channel?, Candidate.tag?]
  | finish =>
    rw [opened?_finish]
    cases opened? sent <;> rfl

theorem batch_handle_ofSession (s : Setting) (sent : List Message) (m : Message) :
    ((ofSession (opened? sent)).handle s m).1.toList =
      ((if m = .finish then (opened? sent).filter fun x => !x.channels.isEmpty
        else none).toList).map (Session.batch s) := by
  cases m with
  | start p => rfl
  | candidate v => rfl
  | finish =>
    rw [if_pos rfl]
    cases opened? sent with
    | none => rfl
    | some x =>
      simp only [handle, finish, ofSession, Option.filter_some]
      by_cases hx : x.channels.isEmpty = true
      · simp [hx]
      · simp [hx, Session.batch]

section Delivery

variable {σ : Type} (t : Transport σ) (s : Setting)

theorem channelizer_deliver (c : Channelizer) (w : σ) (m : Message) :
    (c.deliver t s w m).channelizer = (c.handle s m).2 := by
  unfold deliver
  split
  split <;> simp_all

theorem transport_deliver_recorded (c : Channelizer) (w : σ × List Batch) (m : Message) :
    (c.deliver t.recorded s w m).transport =
      ((c.deliver t s w.1 m).transport, w.2 ++ (c.handle s m).1.toList) := by
  simp only [deliver]
  cases (c.handle s m).1 with
  | none => simp
  | some b => rfl

theorem handleEach_concat (c : Channelizer) (w : σ) (ms : List Message) (m : Message) :
    handleEach t s c w (ms ++ [m]) =
      (((handleEach t s c w ms).1.deliver t s (handleEach t s c w ms).2 m).channelizer,
        ((handleEach t s c w ms).1.deliver t s (handleEach t s c w ms).2 m).transport) := by
  rw [handleEach, List.foldl_append]
  rfl

theorem deliverAll_snd (c : Channelizer) (w : σ) (ms : List Message) :
    (deliverAll t s c w ms).2 = (handleEach t s c w ms).2 := by
  induction ms generalizing c w with
  | nil => rfl
  | cons m ms ih =>
    have h := ih (c.deliver t s w m).channelizer (c.deliver t s w m).transport
    rw [handleEach, List.foldl_cons, deliverAll]
    dsimp only
    cases (c.deliver t s w m).published <;> exact h

theorem handleEach_fst (w : σ) (ms : List Message) :
    (handleEach t s {} w ms).1 = ofSession (opened? ms) := by
  induction ms using List.reverseRecOn with
  | nil => rfl
  | append_singleton ms m ih => rw [handleEach_concat, channelizer_deliver, ih, handle_ofSession]

theorem handleEach_recorded (w : σ) (ms : List Message) :
    (handleEach t.recorded s {} (w, []) ms).2 =
      ((handleEach t s {} w ms).2, (due ms).map (Session.batch s)) := by
  induction ms using List.reverseRecOn with
  | nil => rfl
  | append_singleton ms m ih =>
    rw [handleEach_concat, handleEach_concat, handleEach_fst, handleEach_fst, ih]
    rw [transport_deliver_recorded, batch_handle_ofSession, due_concat, List.map_append]

end Delivery

theorem ofSession_eq_empty {x : Option Session} (h : (ofSession x).product = none) :
    ofSession x = {} := by
  cases x with
  | none => rfl
  | some x => cases h

theorem values_batch (s : Setting) (x : Session) : (x.batch s).values = x.values := by
  simp [Batch.values, Session.values, Session.batch, Setting.batch, Setting.sample]

/-- A new channelizer hands on exactly the sessions that are due, each with its own product, values
and time tags, whatever becomes of the batches; and it keeps nothing while no product is open. -/
theorem published_eq_due {σ : Type} (t : Transport σ) (s : Setting) (w : σ) (ms : List Message) :
    (∀ sent x, opened? sent = some x ↔
      ∃ earlier, sent = earlier ++ .start x.product :: x.candidates.map .candidate) ∧
    (deliverAll t.recorded s {} (w, []) ms).2 =
      ((deliverAll t s {} w ms).2, (due ms).map (Session.batch s)) ∧
    (∀ x ∈ due ms, x.channels ≠ [] ∧ (x.batch s).product = x.product ∧
      (x.batch s).values = x.values) ∧
    (deliverAll t s {} w ms).2 = (handleEach t s {} w ms).2 ∧
    ((handleEach t s {} w ms).1.product = none → (handleEach t s {} w ms).1.buffered = 0) ∧
    (handleEach t s {} w (ms ++ [.finish])).1 = {} := by
  refine ⟨fun _ _ => opened?_eq_some_iff, ?_, ?_, deliverAll_snd t s {} w ms, ?_, ?_⟩
  · rw [deliverAll_snd, deliverAll_snd, handleEach_recorded]
  · intro x hx
    obtain ⟨i, -, hi⟩ := List.mem_filterMap.mp hx
    refine ⟨?_, rfl, values_batch s x⟩
    split at hi
    next =>
      have hc := (Option.filter_eq_some_iff.mp hi).2
      simpa using hc
    next => cases hi
  · rw [handleEach_fst]
    intro h
    rw [ofSession_eq_empty h]
    rfl
  · rw [handleEach_fst, opened?_finish]
    rfl

example (p q : ProductIdentity) (t : TimeTag) (v u : ChannelValue) :
    due [.candidate (.channel v), .start p, .candidate (.channel v), .start q, .candidate (.tag t),
      .candidate (.channel u), .finish, .finish] = [⟨q, [.tag t, .channel u]⟩] := rfl

end Channelizer
end Telemetry
