import Telemetry.Proofs.PrintFormat.Directives

/-!
The grammar of print formats, against their parsing. A format is a sequence of characters, doubled
percent signs and directives, in one way only; any other text either ends inside a placeholder or
has a first character that no placeholder goes on with.
-/

namespace Telemetry.PrintFormat

inductive Token.WellFormed : Token → Prop where
  | char {c} : c ≠ '%' → WellFormed (.char c)
  | percent : WellFormed .percent
  | directive {d} : d.WellFormed → WellFormed (.directive d)

instance : (t : Token) → Decidable t.WellFormed
  | .char c => decidable_of_iff (c ≠ '%') ⟨.char, fun h => by cases h; assumption⟩
  | .percent => isTrue .percent
  | .directive d => decidable_of_iff d.WellFormed ⟨.directive, fun h => by cases h; assumption⟩

def text (ts : List Token) : List Char := ts.flatMap Token.source

structure Spells (ts : List Token) (cs : List Char) : Prop where
  wellFormed : ∀ t ∈ ts, t.WellFormed
  text_eq : text ts = cs

def Begun (cs : List Char) : Prop :=
  cs ≠ [] ∧ ∃ d : Directive, d.WellFormed ∧ cs <+: d.source ∧ cs ≠ d.source

def EndsInside (cs : List Char) : Prop :=
  ∃ ts before begun, Spells ts before ∧ Begun begun ∧ cs = before ++ begun

inductive Defect (cs : List Char) : String → Prop where
  | incomplete : EndsInside cs → Defect cs "incomplete placeholder"
  | unsupported {before c rest} : cs = before ++ c :: rest → EndsInside before →
      ¬ EndsInside (before ++ [c]) → (∀ ts, ¬ Spells ts (before ++ [c])) →
      Defect cs s!"unsupported conversion '{c}'"

section Scanning

variable {c : Char} {cs rest : List Char} {d : Directive} {t : Token} {ts : List Token} {e : Fault}

theorem scan_nil : scan [] = .ok [] := by rw [scan]

theorem scan_percent (cs : List Char) :
    scan ('%' :: '%' :: cs) = (scan cs).map (Token.percent :: ·) := by
  rw [scan]

theorem scan_char (hc : c ≠ '%') : scan (c :: cs) = (scan cs).map (Token.char c :: ·) := by
  rw [scan]
  · rw [if_neg hc]
  · rintro _ rfl
    exact absurd rfl hc

theorem takeDirective_percent (cs : List Char) :
    takeDirective ('%' :: cs) = .error (.unsupported '%') := by
  rfl

theorem scan_directive (hcs : cs.head? ≠ some '%') :
    scan ('%' :: cs) =
      match takeDirective cs with
      | .error e => .error e
      | .ok (d, rest) => (scan rest).map (Token.directive d :: ·) := by
  rw [scan]
  · rw [if_pos rfl]
    split
    next h => rw [h]
    next h => simp only [h]
  · rintro cs' - rfl
    exact hcs rfl

theorem head?_ne_percent (h : ∀ x, takeDirective cs ≠ .error (.unsupported x)) :
    cs.head? ≠ some '%' := by
  intro hcs
  obtain ⟨tail, rfl⟩ := List.head?_eq_some_iff.mp hcs
  exact h '%' (takeDirective_percent tail)

theorem source_directive_append (d : Directive) (rest : List Char) :
    Token.source (.directive d) ++ rest = '%' :: (d.body ++ d.conversion.letter :: rest) := by
  simp [Token.source, Directive.source_eq]

theorem scan_source (ht : t.WellFormed) (rest : List Char) :
    scan (t.source ++ rest) = (scan rest).map (t :: ·) := by
  cases ht with
  | char hc => exact scan_char hc
  | percent => exact scan_percent rest
  | @directive d hd =>
    have h : takeDirective (d.body ++ d.conversion.letter :: rest) = .ok (d, rest) :=
      Directive.takeDirective_eq_ok_iff.mpr ⟨hd, rfl⟩
    rw [source_directive_append, scan_directive (head?_ne_percent (by simp [h])), h]

theorem Spells.nil : Spells [] [] := ⟨nofun, rfl⟩

theorem Spells.cons (ht : t.WellFormed) (h : Spells ts cs) : Spells (t :: ts) (t.source ++ cs) where
  wellFormed := List.forall_mem_cons.mpr ⟨ht, h.wellFormed⟩
  text_eq := by rw [← h.text_eq]; rfl

theorem scan_append (h : Spells ts cs) (rest : List Char) :
    scan (cs ++ rest) = (scan rest).map (ts ++ ·) := by
  obtain ⟨hts, rfl⟩ := h
  induction ts with
  | nil => cases h : scan rest <;> simp [text, h, Except.map]
  | cons t ts ih =>
    rw [List.forall_mem_cons] at hts
    have htext : text (t :: ts) ++ rest = t.source ++ (text ts ++ rest) := by simp [text]
    rw [htext, scan_source hts.1, ih hts.2]
    cases scan rest <;> rfl

inductive Stalls : List Char → Prop where
  | done : Stalls []
  | stuck {tail e} : tail.head? ≠ some '%' → takeDirective tail = .error e → Stalls ('%' :: tail)

def Itemized (cs : List Char) : Prop :=
  ∃ ts before rest, Spells ts before ∧ Stalls rest ∧ cs = before ++ rest

theorem Stalls.itemized (h : Stalls cs) : Itemized cs := ⟨[], [], cs, .nil, h, rfl⟩

theorem Itemized.cons (ht : t.WellFormed) (h : Itemized cs) : Itemized (t.source ++ cs) := by
  obtain ⟨ts, before, rest, hts, hrest, rfl⟩ := h
  exact ⟨t :: ts, t.source ++ before, rest, hts.cons ht, hrest, (List.append_assoc _ _ _).symm⟩

theorem itemized (cs : List Char) : Itemized cs := by
  induction cs using scan.induct with
  | case1 => exact Stalls.done.itemized
  | case2 cs ih => exact ih.cons .percent
  | case3 cs e he hcs =>
    refine (Stalls.stuck (fun hhead => ?_) he).itemized
    obtain ⟨tail, rfl⟩ := List.head?_eq_some_iff.mp hhead
    exact hcs tail rfl rfl
  | case4 cs d rest hd hlt hcs ih =>
    obtain ⟨hwf, rfl⟩ := Directive.takeDirective_eq_ok_iff.mp hd
    rw [← source_directive_append]
    exact ih.cons (.directive hwf)
  | case5 c cs hcs hc ih => exact ih.cons (.char hc)

theorem begun_iff : Begun cs ↔ ∃ d : Directive, d.WellFormed ∧ cs = '%' :: d.body := by
  constructor
  · rintro ⟨hne, d, hd, hprefix, hsource⟩
    rw [d.source_eq, ← List.cons_append] at hprefix hsource
    rcases List.prefix_concat_iff.mp hprefix with h | h
    · exact absurd h hsource
    rcases List.prefix_cons_iff.mp h with rfl | ⟨begun, rfl, hbegun⟩
    · exact absurd rfl hne
    · obtain ⟨d', hd', rfl⟩ := Directive.exists_body_of_prefix hd hbegun
      exact ⟨d', hd', rfl⟩
  · rintro ⟨d, hd, rfl⟩
    refine ⟨nofun, d, hd, ?_, ?_⟩ <;> rw [d.source_eq, ← List.cons_append]
    · exact List.prefix_append _ _
    · simp

theorem scan_eq_ok_iff : scan cs = .ok ts ↔ Spells ts cs := by
  constructor
  · intro h
    obtain ⟨ts', before, rest, hts, hrest, rfl⟩ := itemized cs
    rw [scan_append hts] at h
    cases hrest with
    | done =>
      simp only [scan_nil, Except.map, List.append_nil, Except.ok.injEq] at h ⊢
      exact h ▸ hts
    | stuck hhead he =>
      rw [scan_directive hhead, he] at h
      cases h
  · intro h
    rw [← List.append_nil cs, scan_append h, scan_nil, Except.map, List.append_nil]

theorem exists_of_scan_eq_error (h : scan cs = .error e) : ∃ ts before tail, Spells ts before ∧
    cs = before ++ '%' :: tail ∧ tail.head? ≠ some '%' ∧ takeDirective tail = .error e := by
  obtain ⟨ts, before, rest, hts, hrest, rfl⟩ := itemized cs
  rw [scan_append hts] at h
  cases hrest with
  | done => rw [scan_nil] at h; cases h
  | stuck hhead he =>
    rw [scan_directive hhead, he] at h
    cases h
    exact ⟨ts, before, _, hts, rfl, hhead, he⟩

theorem scan_eq_error {before tail : List Char} (hts : Spells ts before)
    (hhead : tail.head? ≠ some '%') (he : takeDirective tail = .error e) :
    scan (before ++ '%' :: tail) = .error e := by
  rw [scan_append hts, scan_directive hhead, he, Except.map]

theorem scan_eq_incomplete_iff : scan cs = .error .incomplete ↔ EndsInside cs := by
  constructor
  · intro h
    obtain ⟨ts, before, tail, hts, rfl, -, he⟩ := exists_of_scan_eq_error h
    obtain ⟨d, hd, rfl⟩ := Directive.takeDirective_eq_incomplete_iff.mp he
    exact ⟨ts, before, _, hts, begun_iff.mpr ⟨d, hd, rfl⟩, rfl⟩
  · rintro ⟨ts, before, begun, hts, hbegun, rfl⟩
    obtain ⟨d, hd, rfl⟩ := begun_iff.mp hbegun
    have he := Directive.takeDirective_eq_incomplete_iff.mpr ⟨d, hd, rfl⟩
    exact scan_eq_error hts (head?_ne_percent (by simp [he])) he

theorem exists_of_scan_eq_unsupported (h : scan cs = .error (.unsupported c)) :
    ∃ before rest, cs = before ++ c :: rest ∧ EndsInside before ∧
      ∀ after, scan (before ++ c :: after) = .error (.unsupported c) := by
  obtain ⟨ts, before, tail, hts, rfl, hhead, he⟩ := exists_of_scan_eq_error h
  obtain ⟨d, rest, hd, hends, hc, rfl⟩ := Directive.takeDirective_eq_unsupported_iff.mp he
  refine ⟨before ++ '%' :: d.body, rest, by simp, ?_, fun after => ?_⟩
  · exact ⟨ts, before, _, hts, begun_iff.mpr ⟨d, hd, rfl⟩, rfl⟩
  · rw [List.append_assoc, List.cons_append]
    apply scan_eq_error hts
    · simpa [List.head?_append] using hhead
    · exact Directive.takeDirective_eq_unsupported_iff.mpr
        ⟨d, after, hd, hends.of_cons after, hc, rfl⟩

theorem scan_error_of_defect {reason : String} (h : Defect cs reason) :
    ∃ e, scan cs = .error e ∧ e.message = reason := by
  rcases h with hinside | @⟨before, c, rest, rfl, hbefore, hinside, hspells⟩
  · exact ⟨.incomplete, scan_eq_incomplete_iff.mpr hinside, rfl⟩
  cases hscan : scan (before ++ [c]) with
  | ok ts => exact absurd (scan_eq_ok_iff.mp hscan) (hspells ts)
  | error e =>
    cases e with
    | incomplete => exact absurd (scan_eq_incomplete_iff.mp hscan) hinside
    | unsupported x =>
      obtain ⟨before', rest', hsplit, -, hafter⟩ := exists_of_scan_eq_unsupported hscan
      -- were `x` before `c`, the text before `c` would not end inside a placeholder
      rcases List.eq_nil_or_concat rest' with rfl | ⟨rest', y, rfl⟩
      · obtain ⟨rfl, hc⟩ := List.append_inj' hsplit rfl
        obtain ⟨rfl⟩ : c = x := by simpa using hc
        exact ⟨.unsupported c, hafter rest, rfl⟩
      · rw [List.concat_eq_append, ← List.cons_append, ← List.append_assoc] at hsplit
        obtain ⟨rfl, -⟩ := List.append_inj' hsplit rfl
        have hscan := scan_eq_incomplete_iff.mpr hbefore
        rw [hafter rest'] at hscan
        cases hscan

theorem defect_of_scan_error (h : scan cs = .error e) : Defect cs e.message := by
  cases e with
  | incomplete => exact .incomplete (scan_eq_incomplete_iff.mp h)
  | unsupported c =>
    obtain ⟨before, rest, rfl, hbefore, hafter⟩ := exists_of_scan_eq_unsupported h
    refine .unsupported rfl hbefore (fun hinside => ?_) fun ts hts => ?_
    · have hscan := scan_eq_incomplete_iff.mpr hinside
      rw [hafter []] at hscan
      cases hscan
    · have hscan := scan_eq_ok_iff.mpr hts
      rw [hafter []] at hscan
      cases hscan

end Scanning

end Telemetry.PrintFormat
