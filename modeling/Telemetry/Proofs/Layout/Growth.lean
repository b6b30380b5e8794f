import Telemetry.Layout.Build

/-!
Trees that grow from an arena. Every field of a built layout is an entry of the arena whose check
has passed, and the size that the arena gives for its index is the size of its tree.
-/

namespace Telemetry.Layout

open Layout.Field

def Field.entry : Field → Entry
  | .scalar _ s => .scalar s
  | .bit _ b => .bit b
  | .group _ g children => .group g (children.map Field.id)
  | .array _ s elements => .array s (elements.map Field.id)
  | .bitArray _ w children => .bitArray w (children.map Field.id)
  | .stream _ s => .stream s

theorem Field.children_entry (f : Field) : f.entry.children = f.children.map Field.id := by
  cases f <;> rfl

theorem Field.field_entry (f : Field) : f.entry.field f.id f.children = f := by
  cases f <;> rfl

/-- What the check of a field and of all below it leaves behind: the field stands in the arena
under its index, with children of smaller indices that have been checked in turn. -/
inductive Grown (arena : Arena) : Option Kind → Field → Prop where
  | intro {parent : Option Kind} {f : Field} (at_id : arena[f.id]? = some f.entry)
      (below : ∀ c ∈ f.children, c.id < f.id) (checked : checkEntry arena parent f.entry = .ok ())
      (children : ∀ c ∈ f.children, Grown arena (some f.kind) c) : Grown arena parent f

theorem exists_of_bind_eq_ok {α β ε : Type} {x : Except ε α} {f : α → Except ε β} {b : β}
    (h : x >>= f = .ok b) : ∃ a, x = .ok a ∧ f a = .ok b := by
  cases x with
  | error e => cases h
  | ok a => exact ⟨a, rfl, h⟩

theorem exists_ok_of_map {ε α β : Type} {f : α → β} {x : Except ε α} {b : β}
    (h : x.map f = .ok b) : ∃ a, x = .ok a ∧ f a = b := by
  cases x with
  | error e => cases h
  | ok a =>
    cases h
    exact ⟨a, rfl, rfl⟩

theorem error_of_map {ε α β : Type} {f : α → β} {x : Except ε α} {e : ε}
    (h : x.map f = .error e) : x = .error e := by
  cases x with
  | error e' =>
    cases h
    rfl
  | ok a => cases h

theorem map_eq_of_mapM_eq_ok {α β ε : Type} {f : α → Except ε β} {g : β → α}
    (hg : ∀ x y, f x = .ok y → g y = x) {xs : List α} {ys : List β} (h : xs.mapM f = .ok ys) :
    ys.map g = xs ∧ ∀ y ∈ ys, f (g y) = .ok y := by
  induction xs generalizing ys with
  | nil => cases h; simp
  | cons x xs ih =>
    rw [List.mapM_cons] at h
    obtain ⟨y, hx, h⟩ := exists_of_bind_eq_ok h
    obtain ⟨zs, hxs, h⟩ := exists_of_bind_eq_ok h
    cases h
    obtain ⟨hm, hf⟩ := ih hxs
    have hy := hg x y hx
    refine ⟨by rw [List.map_cons, hm, hy], ?_⟩
    intro z hz
    cases hz with
    | head => rw [hy]; exact hx
    | tail _ hz => exact hf z hz

theorem Entry.id_field (e : Entry) (id : Nat) (children : List Field) :
    (e.field id children).id = id := by
  cases e <;> rfl

theorem Entry.kind_field (e : Entry) (id : Nat) (children : List Field) :
    (e.field id children).kind = e.kind := by
  cases e <;> rfl

theorem Entry.children_field (e : Entry) (id : Nat) {children : List Field}
    (h : children.map Field.id = e.children) : (e.field id children).children = children := by
  cases e with
  | scalar s | bit b | stream s => exact (List.map_eq_nil_iff.mp h).symm
  | group g cs | array s cs | bitArray w cs => rfl

theorem Entry.entry_field (e : Entry) (id : Nat) {children : List Field}
    (h : children.map Field.id = e.children) : (e.field id children).entry = e := by
  cases e with
  | scalar s | bit b | stream s => rfl
  | group g cs => exact congrArg (Entry.group g) h
  | array s cs => exact congrArg (Entry.array s) h
  | bitArray w cs => exact congrArg (Entry.bitArray w) h

theorem grown_of_growBelow {arena : Arena} {bound : Nat} {parent : Option Kind} {id : Nat}
    {f : Field} (h : growBelow arena bound parent id = .ok f) :
    f.id = id ∧ Grown arena parent f := by
  induction bound generalizing parent id f with
  | zero => cases h
  | succ bound ih =>
    simp only [growBelow] at h
    cases he : arena[id]? with
    | none => rw [he] at h; cases h
    | some entry =>
      simp only [he] at h
      cases hl : entry.children.find? (id ≤ ·) with
      | some late => simp only [hl] at h; cases h
      | none =>
        simp only [hl] at h
        obtain ⟨_, hc, h⟩ := exists_of_bind_eq_ok h
        obtain ⟨children, hm, h⟩ := exists_of_bind_eq_ok h
        cases h
        obtain ⟨hids, hg⟩ := map_eq_of_mapM_eq_ok (fun _ _ hf => (ih hf).1) hm
        have hcs := entry.children_field id hids
        have hbelow : ∀ c ∈ children, c.id < id := by
          intro c hc
          have hid : c.id ∈ entry.children := hids ▸ List.mem_map_of_mem hc
          simpa using List.find?_eq_none.mp hl _ hid
        have hgrown : ∀ c ∈ children, Grown arena (some entry.kind) c :=
          fun c hc => (ih (hg c hc)).2
        have hentry := entry.entry_field id hids
        refine ⟨entry.id_field id children, .intro ?_ ?_ ?_ ?_⟩
        · rw [entry.id_field, he, hentry]
        · rw [hcs, entry.id_field]; exact hbelow
        · rw [hentry]; exact hc
        · rw [hcs, entry.kind_field]; exact hgrown

theorem root_of_build {arena : Arena} {root : Nat} {l : Layout} (h : build arena root = .ok l) :
    l.root.id = root ∧ Grown arena none l.root := by
  obtain ⟨top, hgrow, rfl⟩ := exists_ok_of_map h
  exact grown_of_growBelow hgrow

theorem grown_of_build {arena : Arena} {root : Nat} {l : Layout} (h : build arena root = .ok l) :
    l.arena = arena ∧ Grown arena none l.root := by
  refine ⟨?_, (root_of_build h).2⟩
  obtain ⟨top, -, rfl⟩ := exists_ok_of_map h
  rfl

namespace Grown

variable {arena : Arena} {parent : Option Kind} {f g : Field}

theorem id_lt_size (h : Grown arena parent f) : f.id < arena.size := by
  obtain ⟨at_id⟩ := h
  exact (Array.getElem?_eq_some_iff.mp at_id).1

theorem of_mem_preorder (h : Grown arena parent f) (hg : g ∈ f.preorder) :
    ∃ parent, Grown arena parent g := by
  induction h with
  | @intro parent f at_id below checked children ih =>
    rw [preorder_eq, List.mem_cons, List.mem_flatMap] at hg
    rcases hg with rfl | ⟨c, hc, hg⟩
    · exact ⟨parent, .intro at_id below checked children⟩
    · exact ih c hc hg

end Grown

theorem sumSizes_eq_sizes {size : Nat → Except Nat (Option Nat)} {fs : List Field}
    (h : ∀ f ∈ fs, size f.id = .ok f.size) : sumSizes size (fs.map Field.id) = .ok (sizes fs) := by
  induction fs with
  | nil => rfl
  | cons f fs ih =>
    have hf := h f List.mem_cons_self
    have hfs := ih fun g hg => h g (List.mem_cons_of_mem _ hg)
    simp only [List.map_cons, sumSizes, sizes, hf]
    cases f.size with
    | none => rfl
    | some n => rw [hfs]; rfl

theorem Grown.sizeIn_id {arena : Arena} {parent : Option Kind} {f : Field}
    (h : Grown arena parent f) {limit : Nat} (hl : f.id < limit) :
    sizeIn arena limit f.id = .ok f.size := by
  induction h generalizing limit with
  | @intro parent f at_id below checked children ih =>
    obtain _ | limit := limit
    · cases hl
    have hs : sumSizes (sizeIn arena limit) (f.children.map Field.id) = .ok (sizes f.children) := by
      apply sumSizes_eq_sizes
      intro c hc
      have hb := below c hc
      exact ih c hc (by omega)
    rw [sizeIn, at_id]
    cases f with
    | scalar id s | bit id b | stream id s | bitArray id w cs => rfl
    | group id g cs => exact hs
    | array id s elements =>
      simp only [Field.entry, size]
      cases s.length with
      | fixed count => exact congrArg (Except.map (Option.map (· * count))) hs
      | inData lengthBytes inBytes | ofField id | untilExhausted => rfl

def frameArena : Arena := #[
  .scalar { name := "count", dataType := .ofBits .unsigned 8 },
  .scalar { name := "level", dataType := .ofBits .unsigned 16, channel := some "LEVEL" },
  .bit { name := "mode", bitLen := 3 },
  .bit { name := "phase", bitLen := 6 },
  .bitArray { name := "flags", bitLen := 9 } [2, 3],
  .array { name := "readings", length := .fixed 3 } [1, 4],
  .array { name := "blocks", length := .ofField 0 } [1],
  .stream { name := "dump", maxLen := some 2, display := .hexDump },
  .group { name := "frame" } [0, 5, 6, 7]]

def level : Field :=
  .scalar 1 { name := "level", dataType := .ofBits .unsigned 16, channel := some "LEVEL" }

def readings : Field :=
  .array 5 { name := "readings", length := .fixed 3 }
    [level, .bitArray 4 { name := "flags", bitLen := 9 }
      [.bit 2 { name := "mode", bitLen := 3 }, .bit 3 { name := "phase", bitLen := 6 }]]

def frame : Layout where
  arena := frameArena
  root := .group 8 { name := "frame" } [
    .scalar 0 { name := "count", dataType := .ofBits .unsigned 8 },
    readings,
    .array 6 { name := "blocks", length := .ofField 0 } [level],
    .stream 7 { name := "dump", maxLen := some 2, display := .hexDump }]

def frameData : List UInt8 := [1] ++ List.replicate 12 7 ++ [0, 9, 0xca, 0xfe]

theorem build_frameArena : build frameArena 8 = .ok frame := rfl

end Telemetry.Layout
