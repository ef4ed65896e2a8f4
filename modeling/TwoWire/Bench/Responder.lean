import TwoWire.Bench
import TwoWire.Pack.Write

/-! Handlers by rule. The first rule that fits a packet says what to do, one act after
another; the first act that fails ends the handling, unless failing is allowed. -/

namespace TwoWire

inductive Act where
  | reply (opCode : UInt8) (payload : List UInt8)
  | sendTo (destination opCode : UInt8) (payload : List UInt8)
  | send (packet : Packet)
  | echo
  | forward
  /-- Replies with a MessagePack value, which has to keep within a bound. -/
  | replyValue (opCode : UInt8) (value : PackValue) (bound : Nat)
  | judge (verdict : List UInt8 → Except BusError Unit)
  | fail (cause : BusError)

def Act.react {σ : Type} : Act → Handler σ
  | reply opCode payload, x, _ => Reaction.reply x opCode payload
  | sendTo destination opCode payload, x, _ => Reaction.sendTo x destination opCode payload
  | send packet, _, _ => Reaction.transmit packet
  | echo, x, arrival => Reaction.reply x arrival.header.opCode arrival.payload
  | forward, _, arrival => Reaction.transmit arrival.packet
  | replyValue opCode value bound, x, _ =>
    match value.writeWithin bound with
    | .error cause => return .error cause
    | .ok payload => Reaction.reply x opCode payload
  | judge verdict, _, arrival => return verdict arrival.payload
  | fail cause, _, _ => return .error cause

structure Rule where
  opCode : Option UInt8 := none
  source : Option UInt8 := none
  /-- The acts in order, and whether each may fail. -/
  acts : List (Act × Bool)

def Rule.fits (r : Rule) (h : Header) : Bool :=
  r.opCode.all (· == h.opCode) && r.source.all (· == h.source)

structure Responder where
  name : String
  rules : List Rule

namespace Responder

variable {σ : Type} (bench : Place σ Bench)

def note (entry : Note) : Reaction σ Unit :=
  Reaction.modify fun world => bench.set ((bench.get world).note entry) world

def play (x : Exchange) (arrival : Arrival) :
    List (Act × Bool) → Reaction σ (Except BusError Unit)
  | [] => return .ok ()
  | (act, mayFail) :: rest => do
    let result ← act.react x arrival
    note bench (.acted result (← Reaction.sentCount))
    if mayFail || result.toBool then play x arrival rest else return result

/-- A packet that no rule fits needs no reaction. -/
def handler (r : Responder) : Handler σ := fun x arrival => do
  note bench (.received r.name x arrival.packet)
  match r.rules.find? (·.fits arrival.header) with
  | none => return .ok ()
  | some rule => play bench x arrival rule.acts

end Responder

end TwoWire
