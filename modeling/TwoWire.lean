import TwoWire.Assembler
import TwoWire.Bench
import TwoWire.Bench.Hardware
import TwoWire.Bench.Responder
import TwoWire.Bench.SinkPlan
import TwoWire.Bench.Station
import TwoWire.Bench.Stream
import TwoWire.ByteQueue
import TwoWire.Channel
import TwoWire.Character
import TwoWire.Character.Emitter
import TwoWire.Character.Sampler
import TwoWire.Character.Strand
import TwoWire.Counters
import TwoWire.Counters.Pack
import TwoWire.Counters.Text
import TwoWire.Error
import TwoWire.Header
import TwoWire.Limits
import TwoWire.LineDriver
import TwoWire.Mailbox
import TwoWire.Network
import TwoWire.Node
import TwoWire.Node.Description
import TwoWire.Outbox
import TwoWire.Outbox.Task
import TwoWire.Outgoing
import TwoWire.Pack.Packable
import TwoWire.Pack.Read
import TwoWire.Pack.Record
import TwoWire.Pack.Value
import TwoWire.Pack.Write
import TwoWire.Packet
import TwoWire.Packet.Pack
import TwoWire.Place
import TwoWire.Reaction
import TwoWire.Reception
import TwoWire.Settings
import TwoWire.Settings.Pack
import TwoWire.Settings.Text
import TwoWire.SharedLine
import TwoWire.Span
import TwoWire.Text.Decimal
import TwoWire.Text.Hex
import TwoWire.Text.Numeral
import TwoWire.Text.Quoted
import TwoWire.Text.Record
import TwoWire.Text.Scan
import TwoWire.Text.Skip
import TwoWire.Proofs.Assembly
import TwoWire.Proofs.StreamReading
import TwoWire.Proofs.CallLog
import TwoWire.Proofs.NodeReception
import TwoWire.Proofs.RoundTrip
import TwoWire.Proofs.Draining
import TwoWire.Proofs.LineTraffic
import TwoWire.Proofs.BusRun
import TwoWire.Proofs.Delivery
import TwoWire.Proofs.Writing
import TwoWire.Proofs.OutboxRun
import TwoWire.Proofs.WriteOrder
import TwoWire.Proofs.NodeHistory
import TwoWire.Proofs.Accounting
import TwoWire.Proofs.Independence
import TwoWire.Proofs.SamplerReading
import TwoWire.Proofs.CharacterCheck
import TwoWire.Proofs.Interference
import TwoWire.Proofs.HalfDuplex
import TwoWire.Proofs.LinePorts
import TwoWire.Proofs.LineLaw
import TwoWire.Proofs.ReceptionRun
import TwoWire.Proofs.TransmitAccounting
import TwoWire.Proofs.AssemblyBounds
import TwoWire.Proofs.SamplerHistory
import TwoWire.Proofs.PendingCount
import TwoWire.Proofs.MailboxRun
import TwoWire.Proofs.BatchReception
import TwoWire.Proofs.ReceiveFailures
import TwoWire.Proofs.Encodings
import TwoWire.Proofs.Sending
import TwoWire.Proofs.EmitterPosition
import TwoWire.Proofs.IdleTimeout
import TwoWire.Proofs.BoundedFifo
import TwoWire.Proofs.Transcript
import TwoWire.Proofs.Registry
import TwoWire.Proofs.AbandonedSends
import TwoWire.Proofs.RemainingSlices
import TwoWire.Proofs.TimeoutRounding
import TwoWire.Proofs.NumeralText
import TwoWire.Proofs.RecordText
import TwoWire.Proofs.SettingsText
