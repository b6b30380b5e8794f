import Telemetry.Proofs.Decode.Soundness

namespace Telemetry.Decode

open Layout (frame frameData build_frameArena)

theorem State.onto_start (data data' : List UInt8) :
    (State.start data).onto data' = .start data' := rfl

theorem field_of_take_eq {o : Options} {f : Layout.Field} {data other : List UInt8} {taken : Nat}
    (hc : (field o f (.start data)).state.cursor.offset = taken) (hd : taken < data.length)
    (ho : taken < other.length) (h : other.take taken = data.take taken) :
    (field o f (.start other)).items = (field o f (.start data)).items ∧
      (field o f (.start other)).state.cursor.offset = taken := by
  have hl := (localField o f).plain
  obtain ⟨n, hn⟩ := hl.forward (.start data)
  have hoffset : min n data.length = taken := by
    rw [← hc, hn, Bytes.Cursor.offset_advance]
    exact (Nat.zero_add _).symm
  obtain rfl : n = taken := by omega
  have hrest : (field o f (.start data)).state.cursor.rest = data.drop n := congrArg _ hn
  have hdata := List.take_append_drop n data
  have hother := List.take_append_drop n other
  have hleft : data.drop n ≠ [] := by simpa using hd
  have hleft' : other.drop n ≠ [] := by simpa using ho
  have hb := hl.blind (.start data) (data.take n) (data.drop n) (other.drop n) hleft hleft'
  rw [hdata, ← h, hother, State.onto_start, State.onto_start] at hb
  obtain ⟨hitems, hstate⟩ := hb hrest
  exact ⟨hitems, by rw [hstate]; exact hc⟩

/-- What a decode leaves behind has no part in it: the whole trace, with its events and candidates,
and the number of bytes taken are those of any product that begins with the bytes taken. -/
theorem decode_eq_of_take_eq {arena : Layout.Arena} {root : Nat} {l : Layout}
    (hb : Layout.build arena root = .ok l) (o : Options) (data : List UInt8) :
    ∃ d, l.decode o data = .ok d ∧
      ∀ other : List UInt8, d.consumed < data.length → d.consumed < other.length →
        other.take d.consumed = data.take d.consumed → l.decode o other = .ok d := by
  refine ⟨_, decode_of_build hb o data, ?_⟩
  intro other hd ho h
  obtain ⟨hitems, hoffset⟩ := field_of_take_eq rfl hd ho h
  rw [decode_of_build hb o other, hitems, hoffset]

theorem consumed_frameData {d : Decoded} (h : frame.decode {} (frameData ++ [0]) = .ok d) :
    d.consumed = 17 := by
  have hc : (field {} frame.root (.start (frameData ++ [0]))).state.cursor.offset = 17 := by
    decide +kernel
  rw [decode_of_build build_frameArena] at h
  cases h
  exact hc

theorem decode_frame_append :
    ∃ d, frame.decode {} (frameData ++ [0]) = .ok d ∧
      frame.decode {} (frameData ++ [1, 2, 3]) = .ok d := by
  obtain ⟨d, hd, h⟩ := decode_eq_of_take_eq build_frameArena {} (frameData ++ [0])
  have hc := consumed_frameData hd
  refine ⟨d, hd, h _ ?_ ?_ ?_⟩ <;> rw [hc] <;> decide

end Telemetry.Decode
