import Mathlib.Data.List.Perm.Basic
import Telemetry.Layout.Definition
import Telemetry.Proofs.Layout.Growth

namespace Telemetry.Layout

structure Heading where
  kind : Kind
  name : String
  base : Option BaseType := none
  width : Option Nat := none
  lengthBytes : Option Nat := none
  channel : Option String := none
  tag : Option TagKind := none
  arity : Nat := 0
deriving DecidableEq

namespace Field

def heading : Field → Heading
  | scalar _ s =>
    { kind := .scalar, name := s.name, base := some s.dataType.base,
      width := s.dataType.byteLen.map fun _ => s.dataType.bitLen, lengthBytes := s.lengthBytes,
      channel := s.channel, tag := s.tag }
  | bit _ b => { kind := .bit, name := b.name, width := some b.bitLen }
  | group _ g children => { kind := .group, name := g.name, arity := children.length }
  | array _ s elements => { kind := .array, name := s.name, arity := elements.length }
  | bitArray _ w children =>
    { kind := .bitArray, name := w.name, width := some w.bitLen, arity := children.length }
  | stream _ s => { kind := .stream, name := s.name, width := s.maxLen }

def table? : Field → Option Enumeration
  | scalar _ s => s.attrs.lookup
  | bit _ b => b.attrs.lookup
  | array _ s _ => s.labelTable
  | group .. | bitArray .. | stream .. => none

def length? : Field → Option ArrayLength
  | array _ s _ => some s.length
  | _ => none

def named? : Field → Option (String × Nat)
  | scalar id s => some (s.name, id)
  | _ => none

mutual

def postorder : Field → List Field
  | group id g children => postorders children ++ [group id g children]
  | array id s elements => postorders elements ++ [array id s elements]
  | bitArray id w children => postorders children ++ [bitArray id w children]
  | scalar id s => [scalar id s]
  | bit id b => [bit id b]
  | stream id s => [stream id s]

def postorders : List Field → List Field
  | [] => []
  | f :: fs => postorder f ++ postorders fs

end

theorem postorders_eq_flatMap (fs : List Field) : postorders fs = fs.flatMap postorder := by
  induction fs with
  | nil => rfl
  | cons f fs ih => rw [postorders, ih, List.flatMap_cons]

theorem postorder_eq (f : Field) : f.postorder = f.children.flatMap postorder ++ [f] := by
  cases f <;> simp only [postorder, children, postorders_eq_flatMap, List.flatMap_nil,
    List.nil_append]

theorem postorder_perm (f : Field) : f.postorder.Perm f.preorder := by
  have hnode {f : Field} (h : ∀ c ∈ f.children, c.postorder.Perm c.preorder) :
      f.postorder.Perm f.preorder := by
    rw [postorder_eq, preorder_eq]
    exact (List.perm_append_singleton _ _).trans ((List.Perm.flatMap_left _ h).cons f)
  induction f using Field.induction with
  | group id g children ih => exact hnode ih
  | array id s elements ih => exact hnode ih
  | bitArray id w children ih => exact hnode ih
  | scalar id s | bit id b | stream id s => exact hnode nofun

theorem named?_eq_none_or (f : Field) : f.named? = none ∨ f.children = [] := by
  cases f with
  | scalar id s => exact .inr rfl
  | bit id b | group id g cs | array id s cs | bitArray id w cs | stream id s => exact .inl rfl

theorem eq_of_entry_eq {f g : Field} (hid : f.id = g.id) (he : f.entry = g.entry)
    (hc : f.children = g.children) : f = g := by
  rw [← f.field_entry, ← g.field_entry, hid, he, hc]

end Field

namespace FieldDefinition

def heading : FieldDefinition → Heading
  | scalar name base bits _ lengthBytes channel tag =>
    { kind := .scalar, name, base := some base, width := bits, lengthBytes, channel, tag }
  | bit name bits _ => { kind := .bit, name, width := some bits }
  | group name _ _ fields => { kind := .group, name, arity := fields.length }
  | array name elements _ _ _ _ => { kind := .array, name, arity := elements.length }
  | bitArray name bits fields =>
    { kind := .bitArray, name, width := some bits, arity := fields.length }
  | stream name maxLen _ _ => { kind := .stream, name, width := maxLen }

def enumeration? : FieldDefinition → Option String
  | scalar _ _ _ attrs _ _ _ | bit _ _ attrs => attrs.enumeration
  | array _ _ _ _ labelEnumeration _ => labelEnumeration
  | group .. | bitArray .. | stream .. => none

def length? : FieldDefinition → Option LengthDefinition
  | array _ _ length _ _ _ => some length
  | _ => none

def children : FieldDefinition → List FieldDefinition
  | group _ _ _ fields | bitArray _ _ fields => fields
  | array _ elements _ _ _ _ => elements
  | scalar .. | bit .. | stream .. => []

mutual

def preorder : FieldDefinition → List FieldDefinition
  | group name typeName format fields => group name typeName format fields :: preorders fields
  | array name elements length labels labelEnumeration format =>
    array name elements length labels labelEnumeration format :: preorders elements
  | bitArray name bits fields => bitArray name bits fields :: preorders fields
  | scalar name base bits attrs lengthBytes channel tag =>
    [scalar name base bits attrs lengthBytes channel tag]
  | bit name bits attrs => [bit name bits attrs]
  | stream name maxLen display handler => [stream name maxLen display handler]

def preorders : List FieldDefinition → List FieldDefinition
  | [] => []
  | c :: cs => preorder c ++ preorders cs

end

theorem preorders_eq (cs : List FieldDefinition) : preorders cs = cs.flatMap preorder := by
  induction cs with
  | nil => rfl
  | cons c cs ih => rw [preorders, ih, List.flatMap_cons]

theorem preorder_eq_cons (c : FieldDefinition) :
    c.preorder = c :: c.children.flatMap preorder := by
  cases c <;> simp only [preorder, children, preorders_eq, List.flatMap_nil]

@[elab_as_elim]
theorem induction {motive : FieldDefinition → Prop} (c : FieldDefinition)
    (scalar : ∀ name base bits attrs lengthBytes channel tag,
      motive (.scalar name base bits attrs lengthBytes channel tag))
    (bit : ∀ name bits attrs, motive (.bit name bits attrs))
    (group : ∀ name typeName format fields, (∀ c ∈ fields, motive c) →
      motive (.group name typeName format fields))
    (array : ∀ name elements length labels labelEnumeration format, (∀ c ∈ elements, motive c) →
      motive (.array name elements length labels labelEnumeration format))
    (bitArray : ∀ name bits fields, (∀ c ∈ fields, motive c) → motive (.bitArray name bits fields))
    (stream : ∀ name maxLen display handler, motive (.stream name maxLen display handler)) :
    motive c := by
  refine FieldDefinition.rec (motive_1 := motive) (motive_2 := fun cs => ∀ c ∈ cs, motive c)
    scalar bit group array bitArray stream ?_ ?_ c
  · intro c hc
    cases hc
  · intro c cs hc hcs b hb
    cases hb with
    | head => exact hc
    | tail _ hb => exact hcs b hb

end FieldDefinition
end Telemetry.Layout
