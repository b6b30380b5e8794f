import Telemetry.Proofs.PrintFormat.Grammar

/-!
The segments of a print format are known from its items: what they show in order, with no literal
that is empty or follows another. Parsing gives these segments of just the texts of the grammar.
-/

namespace Telemetry.PrintFormat

open Text.Utf8 (length)

structure Directive.Asks (d : Directive) (start : Nat) (p : Placeholder) : Prop where
  start : p.start = start
  left : p.flags.left = true ↔ '-' ∈ d.flags
  zero : p.flags.zero = true ↔ '0' ∈ d.flags
  plus : p.flags.plus = true ↔ '+' ∈ d.flags
  space : p.flags.space = true ↔ ' ' ∈ d.flags
  alt : p.flags.alt = true ↔ '#' ∈ d.flags
  noWidth : d.width = [] → p.width = none
  width : d.width ≠ [] → p.width = some (Number.ofDigits d.width)
  noPrecision : d.precision = none → p.precision = none
  lonePoint : d.precision = some [] → p.precision = some 0
  precision : ∀ ds, d.precision = some ds → p.precision = some (Number.ofDigits ds)
  conversion : p.conversion = d.conversion

inductive Token.Adds (offset : Nat) : Token → Char ⊕ Placeholder → Prop where
  | char (c : Char) : Adds offset (.char c) (.inl c)
  | percent : Adds offset .percent (.inl '%')
  | directive {d p} : d.Asks offset p → Adds offset (.directive d) (.inr p)

inductive Contents : Nat → List Token → List (Char ⊕ Placeholder) → Prop where
  | nil {offset} : Contents offset [] []
  | cons {offset t x ts xs} : t.Adds offset x → Contents (offset + length t.source) ts xs →
      Contents offset (t :: ts) (x :: xs)

def Segment.contents : Segment → List (Char ⊕ Placeholder)
  | .literal text => text.map .inl
  | .placeholder p => [.inr p]

/-- No literal is empty or follows another. -/
inductive Separated : List Segment → Prop where
  | nil : Separated []
  | placeholder {p segments} : Separated segments → Separated (.placeholder p :: segments)
  | literal {text segments} : text ≠ [] → (∀ u, segments.head? ≠ some (.literal u)) →
      Separated segments → Separated (.literal text :: segments)

structure Segmented (ts : List Token) (segments : List Segment) : Prop where
  separated : Separated segments
  contents : Contents 0 ts (segments.flatMap Segment.contents)

section Placeholders

variable {d : Directive} {start : Nat} {p : Placeholder}

theorem asks_placeholder (d : Directive) (start : Nat) : d.Asks start (d.placeholder start) := by
  have hnil : Number.ofDigits [] = 0 := rfl
  constructor <;> simp +contextual [Directive.placeholder, Directive.readFlags, hnil]

theorem Directive.Asks.eq (h : d.Asks start p) : p = d.placeholder start := by
  have flag {b : Bool} {c : Char} (h : b = true ↔ c ∈ d.flags) : b = d.flags.contains c := by
    rw [Bool.eq_iff_iff, h, List.contains_iff_mem]
  obtain ⟨at', ⟨left, zero, plus, space, alt⟩, width, precision, conversion⟩ := p
  simp only [Directive.placeholder, Directive.readFlags, Placeholder.mk.injEq, Flags.mk.injEq]
  refine ⟨h.start, ⟨flag h.left, flag h.zero, flag h.plus, flag h.space, flag h.alt⟩, ?_, ?_,
    h.conversion⟩
  · by_cases hw : d.width = []
    · simpa [hw] using h.noWidth hw
    · simpa [hw] using h.width hw
  · cases hp : d.precision with
    | none => exact h.noPrecision hp
    | some ds => exact h.precision ds hp

end Placeholders

section Determined

variable {offset : Nat} {ts : List Token} {xs ys : List (Char ⊕ Placeholder)}
  {segments segments' : List Segment}

theorem Token.Adds.unique {t : Token} {x y : Char ⊕ Placeholder} (hx : t.Adds offset x)
    (hy : t.Adds offset y) : x = y := by
  cases hx with
  | char => cases hy; rfl
  | percent => cases hy; rfl
  | directive hp =>
    cases hy with
    | directive hq => rw [hp.eq, hq.eq]

theorem Contents.unique (hx : Contents offset ts xs) (hy : Contents offset ts ys) : xs = ys := by
  induction hx generalizing ys with
  | nil => cases hy; rfl
  | cons ha _ ih =>
    cases hy with
    | cons hb hy => rw [ha.unique hb, ih hy]

theorem flatMap_placeholder (p : Placeholder) (segments : List Segment) :
    (Segment.placeholder p :: segments).flatMap Segment.contents =
      .inr p :: segments.flatMap Segment.contents := rfl

theorem span_literal (text : List Char) (h : ∀ u, segments.head? ≠ some (.literal u)) :
    ((Segment.literal text :: segments).flatMap Segment.contents).takeWhile Sum.isLeft =
      text.map Sum.inl ∧
    ((Segment.literal text :: segments).flatMap Segment.contents).dropWhile Sum.isLeft =
      segments.flatMap Segment.contents := by
  apply span_of_stops
  · intro x hx
    obtain ⟨c, -, rfl⟩ := List.mem_map.mp hx
    rfl
  · cases segments with
    | nil => exact stops_nil
    | cons s segments =>
      cases s with
      | literal u => exact absurd rfl (h u)
      | placeholder p => exact stops_cons.mpr rfl

theorem Separated.eq (h : Separated segments) (h' : Separated segments')
    (hc : segments.flatMap Segment.contents = segments'.flatMap Segment.contents) :
    segments = segments' := by
  induction h generalizing segments' with
  | nil =>
    cases h' with
    | nil => rfl
    | placeholder => simp [Segment.contents] at hc
    | literal hne => simp [Segment.contents, hne] at hc
  | placeholder h ih =>
    cases h' with
    | nil => simp [Segment.contents] at hc
    | placeholder h' =>
      rw [flatMap_placeholder, flatMap_placeholder, List.cons.injEq, Sum.inr.injEq] at hc
      rw [hc.1, ih h' hc.2]
    | @literal text _ hne =>
      obtain ⟨c, text, rfl⟩ := List.exists_cons_of_ne_nil hne
      simp [Segment.contents] at hc
  | @literal text _ hne hhead h ih =>
    cases h' with
    | nil => simp [Segment.contents, hne] at hc
    | placeholder =>
      obtain ⟨c, text, rfl⟩ := List.exists_cons_of_ne_nil hne
      simp [Segment.contents] at hc
    | literal _ hhead' h' =>
      obtain ⟨htake, hdrop⟩ := span_literal text hhead
      obtain ⟨htake', hdrop'⟩ := span_literal _ hhead'
      rw [hc] at htake hdrop
      have htext := (List.map_inj_right fun x y => Sum.inl.inj).mp (htake.symm.trans htake')
      rw [htext, ih h' (hdrop.symm.trans hdrop')]

end Determined

section Parsed

variable {offset : Nat} {c : Char} {text : List Char} {t : Token} {ts : List Token}
  {segments : List Segment}

theorem Token.literal?_eq_none : t.literal? = none ↔ ∃ d, t = .directive d := by
  cases t <;> simp [Token.literal?]

theorem Token.adds_of_literal (h : t.literal? = some c) : t.Adds offset (.inl c) := by
  cases t with
  | char => cases h; exact .char c
  | percent => cases h; exact .percent
  | directive => cases h

theorem segmentsFrom_of_literal (h : t.literal? = some c) : segmentsFrom offset text (t :: ts) =
    segmentsFrom (offset + length t.source) (text ++ [c]) ts := by
  cases t with
  | char => cases h; rfl
  | percent => cases h; rfl
  | directive => cases h

theorem Separated.literal_append (h : Separated segments)
    (hhead : ∀ u, segments.head? ≠ some (.literal u)) :
    Separated (PrintFormat.literal text ++ segments) := by
  cases text with
  | nil => exact h
  | cons c text => exact .literal (List.cons_ne_nil _ _) hhead h

theorem separated_segmentsFrom : Separated (segmentsFrom offset text ts) := by
  induction ts generalizing offset text with
  | nil =>
    rw [segmentsFrom, ← List.append_nil (PrintFormat.literal text)]
    exact Separated.nil.literal_append nofun
  | cons t ts ih =>
    cases t with
    | char c => exact ih
    | percent => exact ih
    | directive d => exact ih.placeholder.literal_append nofun

theorem flatMap_literal_append (text : List Char) (segments : List Segment) :
    (PrintFormat.literal text ++ segments).flatMap Segment.contents =
      text.map .inl ++ segments.flatMap Segment.contents := by
  cases text <;> rfl

theorem exists_contents (offset : Nat) (text : List Char) (ts : List Token) :
    ∃ xs, Contents offset ts xs ∧
      (segmentsFrom offset text ts).flatMap Segment.contents = text.map .inl ++ xs := by
  -- `text` is the literal read so far, which comes before what the items add
  induction ts generalizing offset text with
  | nil =>
    refine ⟨[], .nil, ?_⟩
    rw [segmentsFrom, ← List.append_nil (PrintFormat.literal text), flatMap_literal_append]
    rfl
  | cons t ts ih =>
    cases hc : t.literal? with
    | some c =>
      obtain ⟨xs, hxs, heq⟩ := ih (offset + length t.source) (text ++ [c])
      refine ⟨.inl c :: xs, .cons (Token.adds_of_literal hc) hxs, ?_⟩
      rw [segmentsFrom_of_literal hc, heq]
      simp
    | none =>
      obtain ⟨d, rfl⟩ := Token.literal?_eq_none.mp hc
      obtain ⟨xs, hxs, heq⟩ := ih (offset + length d.source) []
      refine ⟨.inr (d.placeholder offset) :: xs, .cons (.directive (asks_placeholder d offset)) hxs,
        ?_⟩
      rw [segmentsFrom, flatMap_literal_append, flatMap_placeholder, heq]
      rfl

theorem segmented_segmentsFrom (ts : List Token) : Segmented ts (segmentsFrom 0 [] ts) := by
  obtain ⟨xs, hxs, heq⟩ := exists_contents 0 [] ts
  exact ⟨separated_segmentsFrom, heq ▸ hxs⟩

theorem Segmented.eq (h : Segmented ts segments) : segments = segmentsFrom 0 [] ts :=
  have h' := segmented_segmentsFrom ts
  h.separated.eq h'.separated (h.contents.unique h'.contents)

theorem parse_eq_ok_iff {s : String} {f : PrintFormat} : parse s = .ok f ↔
    ∃ ts, Spells ts s.toList ∧ Segmented ts f.segments ∧ f.source = s := by
  unfold parse
  constructor
  · intro h
    split at h
    next => cases h
    next ts hts =>
      cases h
      exact ⟨ts, scan_eq_ok_iff.mp hts, segmented_segmentsFrom ts, rfl⟩
  · rintro ⟨ts, hts, hsegments, rfl⟩
    rw [scan_eq_ok_iff.mpr hts]
    simp only [← hsegments.eq]

theorem parse_eq_error_iff {s : String} {e : DefinitionError} : parse s = .error e ↔
    ∃ reason, Defect s.toList reason ∧ e = .printFormat s reason := by
  unfold parse
  constructor
  · intro h
    split at h
    next fault hfault =>
      cases h
      exact ⟨fault.message, defect_of_scan_error hfault, rfl⟩
    next => cases h
  · rintro ⟨reason, hreason, rfl⟩
    obtain ⟨fault, hfault, rfl⟩ := scan_error_of_defect hreason
    rw [hfault]

theorem Spells.unique {ts ts' : List Token} {cs : List Char} (h : Spells ts cs)
    (h' : Spells ts' cs) : ts = ts' :=
  Except.ok.inj ((scan_eq_ok_iff.mpr h).symm.trans (scan_eq_ok_iff.mpr h'))

end Parsed

/-- A text is a print format if and only if the grammar has it, in its one decomposition. What is
wrong with any other text is that it ends inside a placeholder, or its first character that does
not go on with one. -/
theorem parse_by_grammar (s : String) :
    (∀ f, parse s = .ok f ↔
      ∃ ts, Spells ts s.toList ∧ Segmented ts f.segments ∧ f.source = s) ∧
    (∀ ts ts', Spells ts s.toList → Spells ts' s.toList → ts = ts') ∧
    ∀ e, parse s = .error e ↔ ∃ reason, Defect s.toList reason ∧ e = .printFormat s reason := by
  exact ⟨fun f => parse_eq_ok_iff, fun ts ts' => Spells.unique, fun e => parse_eq_error_iff⟩

theorem parse_by_grammar_volts :
    parse "µ%%%-05.2lfV" = .ok ⟨"µ%%%-05.2lfV", [.literal ['µ', '%'],
      .placeholder ⟨4, { left := true, zero := true }, some 5, some 2, .fixed⟩, .literal ['V']]⟩ ∧
    (∀ ts, Spells ts "µ%%%-05.2lfV".toList → ts = [.char 'µ', .percent,
      .directive ⟨['-', '0'], ['5'], some ['2'], ['l'], .fixed⟩, .char 'V']) ∧
    parse "µ%-05." = .error (.printFormat "µ%-05." "incomplete placeholder") := by
  have hspells : Spells [.char 'µ', .percent,
      .directive ⟨['-', '0'], ['5'], some ['2'], ['l'], .fixed⟩, .char 'V']
      "µ%%%-05.2lfV".toList := ⟨by decide, by decide⟩
  have hbegun : Begun "%-05.".toList :=
    begun_iff.mpr ⟨⟨['-', '0'], ['5'], some [], [], .decimal⟩, by decide, by decide⟩
  obtain ⟨hok, hunique, -⟩ := parse_by_grammar "µ%%%-05.2lfV"
  obtain ⟨-, -, herror⟩ := parse_by_grammar "µ%-05."
  refine ⟨?_, fun ts h => hunique ts _ h hspells, ?_⟩
  · exact (hok _).mpr ⟨_, hspells, segmented_segmentsFrom _, rfl⟩
  · have hinside : EndsInside "µ%-05.".toList :=
      ⟨[.char 'µ'], ['µ'], _, ⟨by decide, rfl⟩, hbegun, by decide⟩
    exact (herror _).mpr ⟨_, .incomplete hinside, rfl⟩

end Telemetry.PrintFormat
