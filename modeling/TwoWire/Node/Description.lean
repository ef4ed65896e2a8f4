import TwoWire.Node

/-! A node on one line of text, for diagnostics. -/

namespace TwoWire

def recordText (name : String) (fields : List (String × String)) : String :=
  let shown := fields.map fun (field, value) => field ++ ": " ++ value
  name ++ " \x7b " ++ ", ".intercalate shown ++ " \x7d"

def optionText {α : Type} [ToString α] : Option α → String
  | none => "None"
  | some value => "Some(" ++ toString value ++ ")"

def Filter.description : Filter → String
  | everything => "All"
  | addressed => "AddressedToSelf"

def Settings.description (s : Settings) : String :=
  recordText "EndpointConfig"
    [("max_data_len", toString s.payloadBound), ("filter", s.filter.description),
      ("broadcast_address", optionText s.broadcast),
      ("idle_timeout_ms", optionText s.idleTimeout)]

def Counters.description (c : Counters) : String :=
  recordText "EndpointStats" (Counter.all.map fun k => (k.name, toString (c.get k)))

def Node.description {σ : Type} (n : Node σ) : String :=
  recordText "Endpoint"
    [("self_address", toString n.address), ("config", n.settings.description),
      ("rx_state", n.assembler.phase.name), ("rx_handler", toString n.handler.isSome),
      ("tx_sink", toString n.sink.isSome), ("stats", n.counters.description)]

end TwoWire
