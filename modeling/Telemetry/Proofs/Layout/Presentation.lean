import Telemetry.Proofs.Layout.Growth

namespace Telemetry

def Attributes.bare (a : Attributes) : Attributes := { unit := a.unit }

namespace Layout

def Scalar.bare (s : Scalar) : Scalar := { s with attrs := s.attrs.bare }

def BitField.bare (b : BitField) : BitField := { b with attrs := b.attrs.bare }

def Group.bare (g : Group) : Group := { g with printFormat := none }

def Series.bare (s : Series) : Series :=
  { s with labels := [], labelTable := none, printFormat := none }

def Stream.bare (s : Stream) : Stream := { s with display := .none }

def Entry.bare : Entry → Entry
  | .scalar s => .scalar s.bare
  | .bit b => .bit b.bare
  | .group g children => .group g.bare children
  | .array s elements => .array s.bare elements
  | .bitArray w children => .bitArray w children
  | .stream s => .stream s.bare

namespace Field

mutual

def bare : Field → Field
  | scalar id s => scalar id s.bare
  | bit id b => bit id b.bare
  | group id g children => group id g.bare (bares children)
  | array id s elements => array id s.bare (bares elements)
  | bitArray id w children => bitArray id w (bares children)
  | stream id s => stream id s.bare

def bares : List Field → List Field
  | [] => []
  | f :: fs => bare f :: bares fs

end

theorem bares_eq_map (fs : List Field) : bares fs = fs.map bare := by
  induction fs with
  | nil => rfl
  | cons f fs ih => rw [bares, ih, List.map_cons]

@[simp] theorem name_bare (f : Field) : f.bare.name = f.name := by
  cases f <;> rfl

theorem sizes_map {g : Field → Field} {fs : List Field} (h : ∀ f ∈ fs, (g f).size = f.size) :
    sizes (fs.map g) = sizes fs := by
  induction fs with
  | nil => rfl
  | cons f fs ih =>
    have hf := h f List.mem_cons_self
    have hfs := ih fun f' hf' => h f' (List.mem_cons_of_mem _ hf')
    simp only [List.map_cons, sizes, hf, hfs]

theorem size_bare (f : Field) : f.bare.size = f.size := by
  induction f using Field.induction with
  | scalar id s | bit id b | bitArray id w children _ | stream id s => rfl
  | group id g children ih => simp only [bare, size, bares_eq_map, sizes_map ih]
  | array id s elements ih => simp only [bare, size, bares_eq_map, sizes_map ih, Series.bare]

theorem sizes_bares (fs : List Field) : sizes (bares fs) = sizes fs := by
  rw [bares_eq_map]
  exact sizes_map fun f _ => size_bare f

end Field

theorem map_eq_map_of_map_eq {α β γ : Type} {f : α → β} {g : α → γ} {xs ys : List α}
    (hf : xs.map f = ys.map f) (h : ∀ x ∈ xs, ∀ y ∈ ys, f x = f y → g x = g y) :
    xs.map g = ys.map g := by
  induction xs generalizing ys with
  | nil =>
    rw [List.map_nil, eq_comm, List.map_eq_nil_iff] at hf
    rw [hf]
  | cons x xs ih =>
    cases ys with
    | nil => cases hf
    | cons y ys =>
      rw [List.map_cons, List.map_cons, List.cons.injEq] at hf
      have hxy := h x List.mem_cons_self y List.mem_cons_self hf.1
      have hs := ih hf.2 fun x hx y hy =>
        h x (List.mem_cons_of_mem _ hx) y (List.mem_cons_of_mem _ hy)
      rw [List.map_cons, List.map_cons, hxy, hs]

theorem Entry.children_bare (e : Entry) : e.bare.children = e.children := by
  cases e <;> rfl

theorem Field.field_entry_bare (f : Field) :
    f.entry.bare.field f.id (f.children.map bare) = f.bare := by
  cases f <;> simp only [entry, Entry.bare, Entry.field, id, bare, bares_eq_map, children]

theorem Grown.bare_eq {arena arena' : Arena} {parent parent' : Option Kind} {f g : Field}
    (ha : arena.map Entry.bare = arena'.map Entry.bare) (h : Grown arena parent f)
    (h' : Grown arena' parent' g) (hid : f.id = g.id) : f.bare = g.bare := by
  induction h generalizing parent' g with
  | @intro parent f at_id below checked children ih =>
    obtain ⟨at_id', -, -, children'⟩ := h'
    have he : f.entry.bare = g.entry.bare := by
      have hm := congrArg (·[g.id]?) ha
      rw [hid] at at_id
      simpa only [Array.getElem?_map, at_id, at_id', Option.map_some, Option.some.injEq] using hm
    have hids := congrArg Entry.children he
    rw [Entry.children_bare, Entry.children_bare, Field.children_entry, Field.children_entry] at hids
    have hbares := map_eq_map_of_map_eq hids fun c hc d hd hcd => ih c hc (children' d hd) hcd
    rw [← f.field_entry_bare, ← g.field_entry_bare, hid, he, hbares]

def pairFormat : PrintFormat where
  source := "%d %d"
  segments := [.placeholder ⟨0, {}, none, none, .decimal⟩, .literal [' '],
    .placeholder ⟨3, {}, none, none, .decimal⟩]

def pairsArena : Arena :=
  (frameArena.set! 5 (.array
    { name := "readings", length := .fixed 3, labels := ["first"], printFormat := some pairFormat }
    [1, 4])).set! 7 (.stream { name := "dump", maxLen := some 2 })

theorem bare_pairsArena : pairsArena.map Entry.bare = frameArena.map Entry.bare := by
  simp [pairsArena, frameArena, Entry.bare, Series.bare, Stream.bare]

end Layout
end Telemetry
