import TwoWire.Channel
import TwoWire.Place
import TwoWire.Reaction

/-! A handler that only keeps packets for later: each goes into a bounded channel,
and one that does not fit is a failure at once, so reception never waits. -/

namespace TwoWire

def mailbox {σ : Type} (box : Place σ (Channel Packet)) : Handler σ := fun _ arrival => do
  let world ← Reaction.world
  let (result, channel) := (box.get world).offer arrival.packet
  Reaction.modify (box.set channel)
  return result.mapError BusError.ofChannel

end TwoWire
