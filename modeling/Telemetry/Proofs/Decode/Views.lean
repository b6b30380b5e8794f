import Telemetry.Decode.Field

namespace Telemetry.Decode

open Layout (Scalar BitField Window Field)

variable {γ : Type} {q : Item → Option γ}

def Piece.through (q : Item → Option γ) : Piece → Option γ
  | .item i => q i
  | .sample .. => none

theorem filterMap_through_items (items : List Item) :
    (items.map Piece.item).filterMap (Piece.through q) = items.filterMap q := by
  rw [List.filterMap_map]
  rfl

theorem filterMap_through_gatherLines (hq : ∀ offset text, q (.event (.line offset text)) = none)
    (f : PrintFormat) (offset : Nat) (values : List Value) (pieces : List Piece) :
    (gatherLines f offset values pieces).filterMap q = pieces.filterMap (Piece.through q) := by
  fun_induction gatherLines f offset values pieces with
  | case1 offset values =>
    unfold lastLine
    split
    next => rfl
    next => rw [List.filterMap_cons_none (hq _ _), List.filterMap_nil, List.filterMap_nil]
  | case2 offset values i rest ih => simp only [List.filterMap_cons, Piece.through, ih]
  | case3 offset values o v rest first line hfull ih =>
    rw [List.filterMap_cons_none (hq _ _), ih, List.filterMap_cons_none rfl]
  | case4 offset values o v rest first line hfull ih =>
    rw [ih, List.filterMap_cons_none rfl]

theorem filterMap_notices (hq : ∀ n, q (.notice n) = none) (notices : List Notice) :
    (notices.map Item.notice).filterMap q = [] := by
  rw [List.filterMap_map]
  exact List.filterMap_eq_nil_iff.mpr fun n _ => hq n

theorem filterMap_shown (hn : ∀ n, q (.notice n) = none) (o : Options) (name : String)
    (attrs : Attributes) (dn : Value) : (shown o name attrs dn).filterMap q =
      (q (.event (.value name ((Resolution.resolve o.calculator attrs dn).shown attrs dn)
        attrs.unit))).toList := by
  rw [shown, List.filterMap_append, filterMap_notices hn, List.nil_append, List.filterMap_cons]
  split <;> simp_all

theorem filterMap_through_sampled (hn : ∀ n, q (.notice n) = none) (o : Options) (resolved : Bool)
    (offset : Nat) (name : String) (attrs : Attributes) (dn : Value) :
    (sampled o resolved offset name attrs dn).filterMap (Piece.through q) = [] := by
  unfold sampled
  split
  next =>
    dsimp only
    rw [← List.map_map, List.filterMap_append, filterMap_through_items, filterMap_notices hn]
    rfl
  next => rfl

theorem filterMap_offer (hc : ∀ c, q (.candidate c) = none) (hn : ∀ n, q (.notice n) = none)
    (s : Scalar) (dn : Value) : (offer s dn).filterMap q = [] := by
  unfold offer
  split
  next =>
    split
    next => rw [List.filterMap_cons_none (hc _), List.filterMap_nil]
    next => rw [List.filterMap_cons_none (hn _), List.filterMap_nil]
  next => rw [List.filterMap_cons_none (hc _), List.filterMap_nil]
  next => rfl

theorem filterMap_offered (hc : ∀ c, q (.candidate c) = none) (hn : ∀ n, q (.notice n) = none)
    (channels : Bool) (s : Scalar) (dn : Value) :
    (if channels then offer s dn else []).filterMap q = [] := by
  cases channels with
  | false => rfl
  | true => exact filterMap_offer hc hn s dn

section Unvalued

variable (hn : ∀ n, q (.notice n) = none)
  (hv : ∀ name v unit, q (.event (.value name v unit)) = none)
include hn hv

theorem filterMap_shown_eq_nil (o : Options) (name : String) (attrs : Attributes) (dn : Value) :
    (shown o name attrs dn).filterMap q = [] := by
  rw [filterMap_shown hn, hv]
  rfl

theorem filterMap_scalarStep (o : Options) (id : Nat) (s : Scalar) (st : State) :
    (scalarStep o id s st).items.filterMap q =
      (readScalar o.channels id s st).items.filterMap q := by
  rw [scalarStep, List.filterMap_append]
  cases (readScalar o.channels id s st).dn with
  | none => exact List.append_nil _
  | some dn =>
    rw [Option.map_some, Option.getD_some, filterMap_shown_eq_nil hn hv, List.append_nil]

theorem filterMap_bitsStep (o : Options) (w : Window) (bits : List BitField) (st : State) :
    (bitsStep o w bits st).items.filterMap q = [] := by
  rw [bitsStep, List.filterMap_append, filterMap_notices hn, List.nil_append,
    List.filterMap_flatMap]
  exact List.flatMap_eq_nil_iff.mpr fun p _ => filterMap_shown_eq_nil hn hv o _ _ p.2

end Unvalued

theorem filterMap_streamStep (hv : ∀ name v unit, q (.event (.value name v unit)) = none)
    (ha : ∀ offset text, q (.event (.address offset text)) = none)
    (hh : ∀ h, q (.handoff h) = none) (s : Layout.Stream) (st : State) :
    (streamStep s st).items.filterMap q = [] := by
  have hshown (offset : Nat) (bytes : List UInt8) : (displayed s offset bytes).filterMap q = [] := by
    unfold displayed
    split
    next => rfl
    next => rw [List.filterMap_cons_none (hv _ _ _), List.filterMap_nil]
    next =>
      rw [List.filterMap_map]
      exact List.filterMap_eq_nil_iff.mpr fun _ _ => ha _ _
  rw [streamStep, List.filterMap_append, hshown]
  split
  next => rw [List.filterMap_cons_none (hh _), List.filterMap_nil, List.append_nil]
  next => rfl

structure Scan where
  notices : List Notice
  bytes : Option (List UInt8)
  past : State

def scan (s : Scalar) (st : State) : Scan :=
  match extent? s st.cursor with
  | none => ⟨[.noPrefix s.name st.remaining], none, st.advance st.remaining⟩
  | some e =>
    let past := { st with cursor := e.cursor.advance e.length }
    if s.isFill then
      if e.cursor.remaining < e.length then
        ⟨e.notices ++ [.fillPastEnd s.name e.length st.remaining], none, past⟩
      else ⟨e.notices, none, past⟩
    else match e.cursor.read e.length with
      | .error _ => ⟨e.notices ++ [.fieldPastEnd s.name e.length st.remaining], none, past⟩
      | .ok (bytes, _) => ⟨e.notices, some bytes, past⟩

def Scan.reading (c : Scan) (channels : Bool) (id : Nat) (s : Scalar) : Reading :=
  match c.bytes with
  | none => ⟨none, c.notices.map Item.notice, c.past⟩
  | some bytes =>
    let r := readLeaf channels id s bytes c.past
    { r with items := c.notices.map Item.notice ++ r.items }

theorem readScalar_eq_reading (channels : Bool) (id : Nat) (s : Scalar) (st : State) :
    readScalar channels id s st = (scan s st).reading channels id s := by
  cases he : extent? s st.cursor with
  | none => simp [readScalar, scan, Scan.reading, he]
  | some e =>
    cases hf : s.isFill with
    | true =>
      by_cases hlt : e.cursor.remaining < e.length
      · simp [readScalar, scan, Scan.reading, he, hf, hlt]
      · simp [readScalar, scan, Scan.reading, he, hf, hlt]
    | false =>
      cases hr : e.cursor.read e.length with
      | error short => simp [readScalar, scan, Scan.reading, he, hf, hr]
      | ok read => simp [readScalar, scan, Scan.reading, he, hf, hr]

theorem filterMap_through_gathered_scalar (hn : ∀ n, q (.notice n) = none) (o : Options)
    (resolved : Bool) (id : Nat) (s : Scalar) (st : State) :
    (gathered o resolved (.scalar id s) st).items.filterMap (Piece.through q) =
      (readScalar o.channels id s st).items.filterMap q := by
  simp only [gathered, gather, List.filterMap_append, filterMap_through_items]
  cases (readScalar o.channels id s st).dn with
  | none => exact List.append_nil _
  | some dn =>
    rw [Option.map_some, Option.getD_some, filterMap_through_sampled hn, List.append_nil]

theorem filterMap_through_gathered_bitArray (hn : ∀ n, q (.notice n) = none) (o : Options)
    (resolved : Bool) (id : Nat) (w : Window) (children : List Field) (st : State) :
    (gathered o resolved (.bitArray id w children) st).items.filterMap (Piece.through q) = [] := by
  simp only [gathered, gather, ← List.map_map, List.filterMap_append, filterMap_through_items]
  rw [filterMap_notices hn, List.nil_append, List.filterMap_flatMap]
  exact List.flatMap_eq_nil_iff.mpr fun p _ =>
    filterMap_through_sampled hn o resolved _ _ _ p.2

end Telemetry.Decode
