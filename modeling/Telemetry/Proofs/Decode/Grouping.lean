import Telemetry.Decode.Field

namespace Telemetry.Decode

/-- The line of a group of values at their offsets; one that does not fill a line cuts the format
short. -/
def lineOf (f : PrintFormat) (group : List (Nat × Value)) : Nat × String :=
  let format := if group.length = lineSize f then f else f.truncated group.length
  ((group.head?.map Prod.fst).getD 0, format.render (group.map Prod.snd))

def groupLines (f : PrintFormat) (samples : List (Nat × Value)) : List (Nat × String) :=
  (List.range ((samples.length + lineSize f - 1) / lineSize f)).map fun i =>
    lineOf f ((samples.drop (i * lineSize f)).take (lineSize f))

theorem lineSize_pos (f : PrintFormat) : 0 < lineSize f := Nat.le_max_right _ 1

theorem groupLines_nil (f : PrintFormat) : groupLines f [] = [] := by
  have hk := lineSize_pos f
  have hn : (0 + lineSize f - 1) / lineSize f = 0 := Nat.div_eq_of_lt (by omega)
  rw [groupLines, List.length_nil, hn]
  rfl

theorem groupLines_of_lt {f : PrintFormat} {group : List (Nat × Value)} (hne : group ≠ [])
    (hlt : group.length < lineSize f) : groupLines f group = [lineOf f group] := by
  have hpos := List.length_pos_iff.mpr hne
  have hn : (group.length + lineSize f - 1) / lineSize f = 1 :=
    Nat.div_eq_of_lt_le (by omega) (by omega)
  rw [groupLines, hn, List.range_one, List.map_singleton, Nat.zero_mul, List.drop_zero,
    List.take_of_length_le (Nat.le_of_lt hlt)]

theorem groupLines_append {f : PrintFormat} {group : List (Nat × Value)}
    (hfull : group.length = lineSize f) (samples : List (Nat × Value)) :
    groupLines f (group ++ samples) = lineOf f group :: groupLines f samples := by
  have hk := lineSize_pos f
  have hn : ((group ++ samples).length + lineSize f - 1) / lineSize f =
      (samples.length + lineSize f - 1) / lineSize f + 1 := by
    rw [← Nat.add_div_right _ hk, List.length_append, hfull]
    congr 1
    omega
  have htail (i : Nat) : (group ++ samples).drop ((i + 1) * lineSize f) =
      samples.drop (i * lineSize f) := by
    rw [Nat.succ_mul, Nat.add_comm, ← List.drop_drop, List.drop_left' hfull]
  rw [groupLines, hn, List.range_succ_eq_map, List.map_cons, List.map_map, Nat.zero_mul,
    List.drop_zero, List.take_left' hfull]
  congr 1
  apply List.map_congr_left
  intro i _
  simp only [Function.comp_apply, Nat.succ_eq_add_one, htail]

def Piece.visible? : Piece → Option ((Nat × Value) ⊕ Event)
  | .sample offset v => some (.inl (offset, v))
  | .item i => i.event?.map .inr

theorem lineOf_of_full {f : PrintFormat} {group : List (Nat × Value)}
    (hfull : group.length = lineSize f) :
    lineOf f group = ((group.head?.map Prod.fst).getD 0, f.render (group.map Prod.snd)) := by
  rw [lineOf, if_pos hfull]

theorem events_lastLine {f : PrintFormat} {group : List (Nat × Value)}
    (hlt : group.length < lineSize f) :
    (lastLine f ((group.head?.map Prod.fst).getD 0) (group.map Prod.snd)).filterMap Item.event? =
      (groupLines f group).map fun l => .line l.1 l.2 := by
  cases group with
  | nil =>
    rw [groupLines_nil]
    rfl
  | cons sample group =>
    rw [groupLines_of_lt (List.cons_ne_nil _ _) hlt, List.map_singleton, lineOf,
      if_neg (Nat.ne_of_lt hlt)]
    simp only [lastLine, List.map_cons, List.isEmpty_cons, List.length_cons, List.length_map]
    rfl

theorem events_gatherLines {f : PrintFormat} {pieces : List Piece}
    {samples group : List (Nat × Value)} (h : pieces.filterMap Piece.visible? = samples.map .inl)
    (hlt : group.length < lineSize f) :
    (gatherLines f ((group.head?.map Prod.fst).getD 0) (group.map Prod.snd) pieces).filterMap
        Item.event? = (groupLines f (group ++ samples)).map fun l => .line l.1 l.2 := by
  -- the line begun is the part of the values that the lines made so far have not taken
  induction pieces generalizing samples group with
  | nil =>
    have hs : samples = [] := List.map_eq_nil_iff.mp h.symm
    rw [hs, List.append_nil]
    exact events_lastLine hlt
  | cons a pieces ih =>
    cases a with
    | item i =>
      cases he : i.event? with
      | none =>
        have hi : (Piece.item i).visible? = none := by rw [Piece.visible?, he, Option.map_none]
        rw [List.filterMap_cons_none hi] at h
        rw [gatherLines, List.filterMap_cons_none he]
        exact ih h hlt
      | some e =>
        have hi : (Piece.item i).visible? = some (.inr e) := by
          rw [Piece.visible?, he, Option.map_some]
        rw [List.filterMap_cons_some hi] at h
        cases samples <;> cases h
    | sample offset v =>
      obtain _ | ⟨sample, samples⟩ := samples
      · cases h
      simp only [List.filterMap_cons, Piece.visible?, List.map_cons, List.cons.injEq,
        Sum.inl.injEq] at h
      obtain ⟨rfl, hrest⟩ := h
      have hfirst : (if (group.map Prod.snd).isEmpty then offset
          else (group.head?.map Prod.fst).getD 0) =
          ((group ++ [(offset, v)]).head?.map Prod.fst).getD 0 := by
        cases group <;> rfl
      have hline : group.map Prod.snd ++ [v] = (group ++ [(offset, v)]).map Prod.snd := by
        rw [List.map_append, List.map_singleton]
      rw [List.append_cons]
      simp only [gatherLines, hfirst, hline, List.length_map]
      split
      next hfull =>
        have hnext := @ih samples [] hrest (lineSize_pos f)
        rw [groupLines_append hfull, List.map_cons, lineOf_of_full hfull]
        exact congrArg (Event.line _ _ :: ·) hnext
      next hnot =>
        apply ih hrest
        rw [List.length_append, List.length_singleton] at hnot ⊢
        omega

theorem events_lines {pieces : List Piece} {samples : List (Nat × Value)}
    (h : pieces.filterMap Piece.visible? = samples.map .inl) (f : PrintFormat) :
    (lines f pieces).filterMap Item.event? =
      (groupLines f samples).map fun l => .line l.1 l.2 :=
  @events_gatherLines f pieces samples [] h (lineSize_pos f)

end Telemetry.Decode
