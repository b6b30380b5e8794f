import Telemetry.PrintFormat.Render
import Telemetry.Proofs.PrintFormat.Segments

namespace Telemetry.PrintFormat

open Text.Utf8 (length)

def ofTokens (ts : List Token) : PrintFormat := ⟨String.ofList (text ts), segmentsFrom 0 [] ts⟩

def directives (ts : List Token) : Nat := ts.countP fun t => t.literal?.isNone

def upTo : (n : Nat) → List Token → List Token
  | _, [] => []
  | n, t :: ts =>
    match t.literal?, n with
    | some _, n => t :: upTo n ts
    | none, 0 => []
    | none, n + 1 => t :: upTo n ts

section Items

variable {n : Nat} {c : Char} {t : Token} {ts before : List Token}

theorem directives_of_literal (h : t.literal? = some c) (ts : List Token) :
    directives (t :: ts) = directives ts := by
  simp [directives, h]

theorem directives_directive (d : Directive) (ts : List Token) :
    directives (.directive d :: ts) = directives ts + 1 := by
  simp [directives, Token.literal?]

theorem upTo_of_literal (h : t.literal? = some c) (n : Nat) (ts : List Token) :
    upTo n (t :: ts) = t :: upTo n ts := by
  simp only [upTo, h]

theorem upTo_zero_directive (d : Directive) (ts : List Token) :
    upTo 0 (.directive d :: ts) = [] := rfl

theorem upTo_succ_directive (n : Nat) (d : Directive) (ts : List Token) :
    upTo (n + 1) (.directive d :: ts) = .directive d :: upTo n ts := rfl

theorem upTo_append (h : directives before ≤ n) (after : List Token) :
    upTo n (before ++ after) = before ++ upTo (n - directives before) after := by
  induction before generalizing n with
  | nil => rfl
  | cons t before ih =>
    cases hc : t.literal? with
    | some c =>
      rw [directives_of_literal hc] at h ⊢
      rw [List.cons_append, List.cons_append, upTo_of_literal hc, ih h]
    | none =>
      obtain ⟨d, rfl⟩ := Token.literal?_eq_none.mp hc
      rw [directives_directive] at h ⊢
      obtain ⟨n, rfl⟩ := Nat.exists_eq_add_of_le' (Nat.le_trans (Nat.le_add_left 1 _) h)
      rw [List.cons_append, List.cons_append, upTo_succ_directive, ih (Nat.le_of_succ_le_succ h),
        Nat.add_sub_add_right]

theorem upTo_of_le (h : directives ts ≤ n) : upTo n ts = ts := by
  simpa [upTo] using upTo_append h []

theorem upTo_append_directive (before : List Token) (d : Directive) (after : List Token) :
    upTo (directives before) (before ++ .directive d :: after) = before := by
  rw [upTo_append (Nat.le_refl _), Nat.sub_self, upTo_zero_directive, List.append_nil]

theorem upTo_upTo (n m : Nat) (ts : List Token) : upTo m (upTo n ts) = upTo (min n m) ts := by
  induction ts generalizing n m with
  | nil => rfl
  | cons t ts ih =>
    cases hc : t.literal? with
    | some c => simp only [upTo_of_literal hc, ih]
    | none =>
      obtain ⟨d, rfl⟩ := Token.literal?_eq_none.mp hc
      cases n with
      | zero => rw [Nat.zero_min, upTo_zero_directive, upTo]
      | succ n =>
        cases m with
        | zero => rw [Nat.min_zero, upTo_succ_directive, upTo_zero_directive, upTo_zero_directive]
        | succ m => simp only [upTo_succ_directive, ih, Nat.add_min_add_right]

theorem exists_directive (h : n < directives ts) :
    ∃ before d after, ts = before ++ .directive d :: after ∧ directives before = n := by
  induction ts generalizing n with
  | nil => cases h
  | cons t ts ih =>
    cases hc : t.literal? with
    | some c =>
      rw [directives_of_literal hc] at h
      obtain ⟨before, d, after, rfl, hn⟩ := ih h
      exact ⟨t :: before, d, after, rfl, (directives_of_literal hc before).trans hn⟩
    | none =>
      obtain ⟨d, rfl⟩ := Token.literal?_eq_none.mp hc
      rw [directives_directive] at h
      cases n with
      | zero => exact ⟨[], d, ts, rfl, rfl⟩
      | succ n =>
        obtain ⟨before, d', after, rfl, hn⟩ := ih (Nat.lt_of_succ_lt_succ h)
        exact ⟨.directive d :: before, d', after, rfl, by rw [directives_directive, hn]⟩

theorem directives_upTo (n : Nat) (ts : List Token) :
    directives (upTo n ts) = min n (directives ts) := by
  rcases Nat.lt_or_ge n (directives ts) with hn | hn
  · obtain ⟨before, d, after, rfl, rfl⟩ := exists_directive hn
    rw [upTo_append_directive, Nat.min_eq_left (Nat.le_of_lt hn)]
  · rw [upTo_of_le hn, Nat.min_eq_right hn]

theorem upTo_sublist (n : Nat) (ts : List Token) : (upTo n ts).Sublist ts := by
  rcases Nat.lt_or_ge n (directives ts) with hn | hn
  · obtain ⟨before, d, after, rfl, rfl⟩ := exists_directive hn
    rw [upTo_append_directive]
    exact List.sublist_append_left _ _
  · exact (upTo_of_le hn).symm ▸ List.Sublist.refl ts

theorem text_append (ts ts' : List Token) : text (ts ++ ts') = text ts ++ text ts' :=
  List.flatMap_append

theorem length_text_cons (t : Token) (ts : List Token) :
    length (text (t :: ts)) = length t.source + length (text ts) := by
  simp [text]

end Items

section Cut

variable {offset stop : Nat} {run : List Char} {ts : List Token}

theorem segmentsFrom_append_directive (offset : Nat) (run : List Char) (before : List Token)
    (d : Directive) (after : List Token) :
    segmentsFrom offset run (before ++ .directive d :: after) = segmentsFrom offset run before ++
      .placeholder (d.placeholder (offset + length (text before))) ::
        segmentsFrom (offset + length (text before) + length d.source) [] after := by
  induction before generalizing offset run with
  | nil => rfl
  | cons t before ih =>
    rw [List.cons_append, length_text_cons, ← Nat.add_assoc]
    cases hc : t.literal? with
    | some c => rw [segmentsFrom_of_literal hc, segmentsFrom_of_literal hc, ih]
    | none =>
      obtain ⟨d', rfl⟩ := Token.literal?_eq_none.mp hc
      rw [segmentsFrom, segmentsFrom, ih, List.append_assoc, List.cons_append]
      rfl

theorem isBefore_of_mem_literal {s : Segment} (h : s ∈ literal run) :
    Segment.isBefore stop s = true := by
  unfold literal at h
  split at h
  · cases h
  · rw [List.mem_singleton.mp h]
    rfl

theorem length_source_pos (d : Directive) : 0 < length d.source := by
  have := Text.Utf8.size_pos '%'
  rw [d.source_eq, Text.Utf8.length_cons]
  omega

theorem isBefore_of_mem_segmentsFrom {s : Segment} (h : s ∈ segmentsFrom offset run ts) :
    Segment.isBefore (offset + length (text ts)) s = true := by
  induction ts generalizing offset run with
  | nil => exact isBefore_of_mem_literal h
  | cons t ts ih =>
    rw [length_text_cons, ← Nat.add_assoc]
    cases hc : t.literal? with
    | some c =>
      rw [segmentsFrom_of_literal hc] at h
      exact ih h
    | none =>
      obtain ⟨d, rfl⟩ := Token.literal?_eq_none.mp hc
      rw [segmentsFrom, List.mem_append, List.mem_cons] at h
      rcases h with h | rfl | h
      · exact isBefore_of_mem_literal h
      · have := length_source_pos d
        exact decide_eq_true (Nat.lt_add_right _ (Nat.lt_add_of_pos_right this))
      · exact ih h

@[simp] theorem filterMap_cons_literal (run : List Char) (segments : List Segment) :
    (Segment.literal run :: segments).filterMap Segment.placeholder? =
      segments.filterMap Segment.placeholder? := rfl

@[simp] theorem filterMap_cons_placeholder (p : Placeholder) (segments : List Segment) :
    (Segment.placeholder p :: segments).filterMap Segment.placeholder? =
      p :: segments.filterMap Segment.placeholder? := rfl

theorem filterMap_literal_append (run : List Char) (segments : List Segment) :
    (literal run ++ segments).filterMap Segment.placeholder? =
      segments.filterMap Segment.placeholder? := by
  cases run <;> rfl

theorem length_filterMap_segmentsFrom (offset : Nat) (run : List Char) (ts : List Token) :
    ((segmentsFrom offset run ts).filterMap Segment.placeholder?).length = directives ts := by
  induction ts generalizing offset run with
  | nil =>
    rw [segmentsFrom, ← List.append_nil (literal run), filterMap_literal_append]
    rfl
  | cons t ts ih =>
    cases hc : t.literal? with
    | some c => rw [segmentsFrom_of_literal hc, ih, directives_of_literal hc]
    | none =>
      obtain ⟨d, rfl⟩ := Token.literal?_eq_none.mp hc
      rw [segmentsFrom, filterMap_literal_append, filterMap_cons_placeholder, List.length_cons, ih,
        directives_directive]

theorem placeholders_ofTokens (ts : List Token) : (ofTokens ts).placeholders = directives ts :=
  length_filterMap_segmentsFrom 0 [] ts

theorem slots_ofTokens_getElem? (before : List Token) (d : Directive) (after : List Token) :
    (ofTokens (before ++ .directive d :: after)).slots[directives before]? =
      some (d.placeholder (length (text before))) := by
  rw [slots, ofTokens, segmentsFrom_append_directive, List.filterMap_append,
    filterMap_cons_placeholder, ← length_filterMap_segmentsFrom 0 [] before,
    List.getElem?_append_right (Nat.le_refl _), Nat.sub_self, List.getElem?_cons_zero,
    Nat.zero_add]

theorem truncated_of_le {f : PrintFormat} {n : Nat} (h : f.placeholders ≤ n) :
    f.truncated n = f := by
  rw [truncated, List.getElem?_eq_none h]

theorem takeWhile_segmentsFrom (before : List Token) (d : Directive) (after : List Token) :
    (segmentsFrom 0 [] (before ++ .directive d :: after)).takeWhile
      (Segment.isBefore (length (text before))) = segmentsFrom 0 [] before := by
  rw [segmentsFrom_append_directive, Nat.zero_add]
  refine (span_of_stops (fun s hs => ?_) (stops_cons.mpr ?_)).1
  · simpa using isBefore_of_mem_segmentsFrom hs
  · simp [Segment.isBefore, Directive.placeholder]

theorem takeBytes_ofTokens (before : List Token) (d : Directive) (after : List Token) :
    Text.Utf8.takeBytes (length (text before))
      (ofTokens (before ++ .directive d :: after)).source.toList = text before := by
  rw [ofTokens, String.toList_ofList, text_append, Text.Utf8.takeBytes_append]

theorem truncated_ofTokens (n : Nat) (ts : List Token) :
    (ofTokens ts).truncated n = ofTokens (upTo n ts) := by
  rcases Nat.lt_or_ge n (directives ts) with hn | hn
  · obtain ⟨before, d, after, rfl, rfl⟩ := exists_directive hn
    -- the placeholder starts where the items before it end, in bytes
    rw [truncated, slots_ofTokens_getElem?, upTo_append_directive]
    simp only [Directive.placeholder, takeBytes_ofTokens]
    rw [ofTokens, takeWhile_segmentsFrom]
    rfl
  · rw [upTo_of_le hn]
    exact truncated_of_le ((placeholders_ofTokens ts).trans_le hn)

end Cut

section Parsed

variable {s : String} {f : PrintFormat} {ts : List Token}

theorem parse_ofTokens (h : ∀ t ∈ ts, t.WellFormed) :
    parse (ofTokens ts).source = .ok (ofTokens ts) :=
  parse_eq_ok_iff.mpr ⟨ts, ⟨h, String.toList_ofList.symm⟩, segmented_segmentsFrom ts, rfl⟩

theorem exists_ofTokens (h : parse s = .ok f) :
    ∃ ts : List Token, (∀ t ∈ ts, t.WellFormed) ∧ f = ofTokens ts := by
  obtain ⟨source, segments⟩ := f
  obtain ⟨ts, hts, hsegments, rfl⟩ := parse_eq_ok_iff.mp h
  refine ⟨ts, hts.wellFormed, ?_⟩
  rw [ofTokens, hts.text_eq, String.ofList_toList, ← hsegments.eq]

end Parsed

section Rendering

theorem renderSegments_append (segments rest : List Segment) (vs : List Value) :
    renderSegments (segments ++ rest) vs = renderSegments segments vs ++
      renderSegments rest (vs.drop (segments.filterMap Segment.placeholder?).length) := by
  induction segments generalizing vs with
  | nil => rfl
  | cons s segments ih =>
    cases s with
    | literal run => simp [renderSegments, ih]
    | placeholder p => cases vs <;> simp [renderSegments, ih]

theorem renderSegments_take (segments : List Segment) (vs : List Value) :
    renderSegments segments (vs.take (segments.filterMap Segment.placeholder?).length) =
      renderSegments segments vs := by
  induction segments generalizing vs with
  | nil => rfl
  | cons s segments ih =>
    cases s with
    | literal run => simp [renderSegments, ih]
    | placeholder p => cases vs <;> simp [renderSegments, ih]

theorem render_take (f : PrintFormat) (vs : List Value) :
    f.render (vs.take f.placeholders) = f.render vs :=
  congrArg String.ofList (renderSegments_take f.segments vs)

theorem segments_truncated_prefix (f : PrintFormat) (n : Nat) :
    (f.truncated n).segments <+: f.segments := by
  unfold truncated
  split
  · exact List.prefix_refl _
  · exact List.takeWhile_prefix _

theorem render_truncated_prefix (f : PrintFormat) (n : Nat) (vs : List Value) :
    ((f.truncated n).render vs).toList <+: (f.render vs).toList := by
  obtain ⟨rest, hrest⟩ := segments_truncated_prefix f n
  rw [render, render, String.toList_ofList, String.toList_ofList, ← hrest, renderSegments_append]
  exact List.prefix_append _ _

end Rendering

/-- A truncated format is the format that its source parses to. It has the first placeholders,
truncating it further keeps the fewer of them, and it shows the first values as the whole format
does. -/
theorem truncated_coherent {s : String} {f : PrintFormat} (h : parse s = .ok f) (n m : Nat)
    (vs : List Value) :
    parse (f.truncated n).source = .ok (f.truncated n) ∧
    (f.truncated n).placeholders = min n f.placeholders ∧
    (f.truncated n).truncated m = f.truncated (min n m) ∧
    (f.placeholders ≤ n → f.truncated n = f) ∧
    ((f.truncated n).render vs).toList <+: (f.render vs).toList ∧
    ∀ ws, ws.take (min n f.placeholders) = vs.take (min n f.placeholders) →
      (f.truncated n).render ws = (f.truncated n).render vs := by
  obtain ⟨ts, hts, rfl⟩ := exists_ofTokens h
  have hcount : ((ofTokens ts).truncated n).placeholders = min n (ofTokens ts).placeholders := by
    rw [truncated_ofTokens, placeholders_ofTokens, directives_upTo, placeholders_ofTokens]
  refine ⟨?_, hcount, ?_, truncated_of_le, render_truncated_prefix _ n vs, fun ws hws => ?_⟩
  · rw [truncated_ofTokens]
    exact parse_ofTokens fun t ht => hts t ((upTo_sublist n ts).mem ht)
  · rw [truncated_ofTokens, truncated_ofTokens, truncated_ofTokens, upTo_upTo]
  · rw [← render_take, hcount, hws, ← hcount, render_take]

theorem truncated_coherent_volts : ∃ f, parse "µ%%%d:%-05.2lfV" = .ok f ∧
    parse "µ%%%d:" = .ok (f.truncated 1) ∧ (f.truncated 1).placeholders = 1 ∧
    (f.truncated 1).truncated 0 = f.truncated 0 ∧ f.truncated 2 = f ∧
    ((f.truncated 1).render [.signed 9, .unsigned 4]).toList <+:
      (f.render [.signed 9, .unsigned 4]).toList ∧
    (f.truncated 1).render [.signed 9] = (f.truncated 1).render [.signed 9, .unsigned 4] := by
  let ts : List Token := [.char 'µ', .percent, .directive ⟨[], [], none, [], .decimal⟩, .char ':',
    .directive ⟨['-', '0'], ['5'], some ['2'], ['l'], .fixed⟩, .char 'V']
  have hsource : (ofTokens ts).source = "µ%%%d:%-05.2lfV" := by decide
  have hcut : ((ofTokens ts).truncated 1).source = "µ%%%d:" := by decide
  have htwo : (ofTokens ts).placeholders = 2 := by decide
  have hts : ∀ t ∈ ts, t.WellFormed := by decide
  have h := parse_ofTokens hts
  obtain ⟨hparse, hcount, htwice, -, hprefix, hfirst⟩ :=
    truncated_coherent h 1 0 [.signed 9, .unsigned 4]
  obtain ⟨-, -, -, hwhole, -⟩ := truncated_coherent h 2 0 []
  rw [hsource] at h
  rw [hcut] at hparse
  rw [htwo] at hcount hfirst hwhole
  exact ⟨ofTokens ts, h, hparse, hcount, htwice, hwhole (Nat.le_refl 2), hprefix,
    hfirst [.signed 9] rfl⟩

end Telemetry.PrintFormat
