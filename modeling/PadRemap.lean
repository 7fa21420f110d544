import PadRemap.Binding.Event
import PadRemap.Binding.Table
import PadRemap.Cli
import PadRemap.Code.Name
import PadRemap.Config.Config
import PadRemap.Config.Slot
import PadRemap.Device.Identity
import PadRemap.Device.Path
import PadRemap.Device.Supported
import PadRemap.Discovery.Opener
import PadRemap.Discovery.Scan
import PadRemap.Document.Value
import PadRemap.Evdev.Assembler
import PadRemap.Filter.Chain
import PadRemap.Filter.Direction
import PadRemap.Filter.Response
import PadRemap.Filter.Spec
import PadRemap.Filter.Timed
import PadRemap.Json
import PadRemap.Json.Text
import PadRemap.Main
import PadRemap.Manager.Inventory
import PadRemap.Manager.Manager
import PadRemap.Manager.Run
import PadRemap.Mapper.Plan
import PadRemap.Output.Backend
import PadRemap.Output.DeviceId
import PadRemap.Output.Event
import PadRemap.Output.Multiplexer
import PadRemap.Pad.Axis
import PadRemap.Pad.Button
import PadRemap.Pad.Message
import PadRemap.Proofs.Binding.RoundTrip
import PadRemap.Proofs.Capture.Replay
import PadRemap.Proofs.Code.Names
import PadRemap.Proofs.Config.Bindings
import PadRemap.Proofs.Evdev.Framing
import PadRemap.Proofs.Evdev.Scaling
import PadRemap.Proofs.Filter.Building
import PadRemap.Proofs.Filter.Cardinal
import PadRemap.Proofs.Filter.Contraction
import PadRemap.Proofs.Filter.Faultless
import PadRemap.Proofs.Filter.Footprint
import PadRemap.Proofs.Filter.Holding
import PadRemap.Proofs.Filter.Integration
import PadRemap.Proofs.Filter.Mealy
import PadRemap.Proofs.Filter.Memory
import PadRemap.Proofs.Filter.Order
import PadRemap.Proofs.Filter.Rescaling
import PadRemap.Proofs.Manager.Advertised
import PadRemap.Proofs.Manager.Binding
import PadRemap.Proofs.Manager.Discovery
import PadRemap.Proofs.Manager.Listing
import PadRemap.Proofs.Manager.Outage
import PadRemap.Proofs.Manager.Setup
import PadRemap.Proofs.Manager.Waiting
import PadRemap.Proofs.Mapper.Drive
import PadRemap.Proofs.Mapper.Ending
import PadRemap.Proofs.Mapper.Ensemble
import PadRemap.Proofs.Mapper.Failure
import PadRemap.Proofs.Mapper.Isolation
import PadRemap.Proofs.Mapper.Mirror
import PadRemap.Proofs.Mapper.Reach
import PadRemap.Proofs.Mapper.Repeating
import PadRemap.Proofs.Mapper.Rest
import PadRemap.Proofs.Mapper.Selection
import PadRemap.Proofs.Mapper.Upkeep
import PadRemap.Proofs.Mapper.Values
import PadRemap.Proofs.Mapper.Wiring
import PadRemap.Proofs.Output.Activation
import PadRemap.Proofs.Output.Agreement
import PadRemap.Proofs.Output.Batches
import PadRemap.Proofs.Output.Declaring
import PadRemap.Proofs.Output.Delivery
import PadRemap.Proofs.Output.Level
import PadRemap.Proofs.Output.Past
import PadRemap.Proofs.Output.Ranges
import PadRemap.Proofs.Output.Reaction
import PadRemap.Proofs.Output.Rejection
import PadRemap.Proofs.Output.Service
import PadRemap.Proofs.Output.Timing
import PadRemap.Proofs.Pad.Coherence
import PadRemap.Proofs.Slot.Life
import PadRemap.Proofs.Slot.Lifecycle
import PadRemap.Proofs.Slot.Phase
import PadRemap.Proofs.Slot.Succession
import PadRemap.Proofs.Slot.Visit
import PadRemap.Proofs.Text.Bytes
import PadRemap.Proofs.Text.Numerals
import PadRemap.Proofs.Text.Splitting
import PadRemap.Proofs.Xbox.Decoding
import PadRemap.Proofs.Xbox.Wireless
import PadRemap.Rehearsal.Directory
import PadRemap.Rehearsal.Stage
import PadRemap.Single.Parts
import PadRemap.Single.Shortest
import PadRemap.Slot.Slot
import PadRemap.Slot.Worker
import PadRemap.Table
import PadRemap.Text
import PadRemap.Toml.Lexeme
import PadRemap.Toml.Moment
import PadRemap.Toml.Number
import PadRemap.Toml.Text
import PadRemap.Toml.Tree
import PadRemap.Toml.Value
import PadRemap.Xbox.Reader
