import Telemetry.Channel.Channelizer

namespace Telemetry

structure TransportError where
  reason : String
deriving DecidableEq, Repr

def TransportError.message (e : TransportError) : String := s!"transport error: {e.reason}"

def TransportError.line (e : TransportError) : Log.Line :=
  ⟨.error, "failed to publish samples: " ++ e.message, []⟩

structure Transport (σ : Type) where
  publish : σ → Batch → Except TransportError Unit × σ

def Transport.collecting : Transport (List Batch) := ⟨fun kept b => (.ok (), kept ++ [b])⟩

namespace Channelizer

structure Outcome (σ : Type) where
  published : Except TransportError Nat
  channelizer : Channelizer
  transport : σ

def deliver {σ : Type} (t : Transport σ) (s : Setting) (c : Channelizer) (w : σ) (m : Message) :
    Outcome σ :=
  let (batch, c) := c.handle s m
  match batch with
  | none => ⟨.ok 0, c, w⟩
  | some b =>
    let (result, w) := t.publish w b
    ⟨result.map fun () => b.samples.length, c, w⟩

def deliverAll {σ : Type} (t : Transport σ) (s : Setting) (c : Channelizer) (w : σ) :
    List Message → List TransportError × σ
  | [] => ([], w)
  | m :: ms =>
    let o := c.deliver t s w m
    let (errors, w) := deliverAll t s o.channelizer o.transport ms
    match o.published with
    | .ok _ => (errors, w)
    | .error e => (e :: errors, w)

def warnings (c : Channelizer) (s : Setting) : Message → List Log.Line
  | .start _ =>
    match c.product with
    | some p => [⟨.warning, "product was never ended",
        [("product", p.id), ("discarded", String.ofList (Number.digits c.buffered))]⟩]
    | none => []
  | .candidate _ => []
  | .finish =>
    match c.product with
    | none => [⟨.warning, "end of product without an open product", []⟩]
    | some p =>
      match ProductTime.resolve c.tags s.config.clockFormat with
      | .error e =>
        if c.channels.isEmpty then []
        else [⟨.warning, "abandoning time correlation: " ++ e.message, [("product", p.id)]⟩]
      | .ok _ => []

end Channelizer
end Telemetry
