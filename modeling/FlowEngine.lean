import FlowEngine.Main
import FlowEngine.Simulation.Directory
import FlowEngine.Simulation.Probes
import FlowEngine.Simulation.Schedule
import FlowEngine.Proofs.Exchange.Course
import FlowEngine.Proofs.Exchange.Invariant
import FlowEngine.Proofs.Exchange.Delivery
import FlowEngine.Proofs.Exchange.Table
import FlowEngine.Proofs.Exchange.Fate
import FlowEngine.Proofs.Run.Conservation
import FlowEngine.Proofs.Run.Meaning
import FlowEngine.Proofs.Run.Levels
import FlowEngine.Proofs.Run.Simulated
import FlowEngine.Proofs.Aggregation.Blocks
import FlowEngine.Proofs.Aggregation.Regrouped
import FlowEngine.Proofs.Run.Carried
import FlowEngine.Proofs.Exchange.Answers
import FlowEngine.Proofs.Wire.Scanned
import FlowEngine.Proofs.Wire.Faithful
import FlowEngine.Proofs.Wire.Envelopes
import FlowEngine.Proofs.Storage.Cells
import FlowEngine.Proofs.Storage.Records
import FlowEngine.Proofs.Run.Cancelled
import FlowEngine.Proofs.Run.Repeated
import FlowEngine.Proofs.Catalog
import FlowEngine.Proofs.Aggregation.Nested
import FlowEngine.Proofs.Numbers.Finite
import FlowEngine.Proofs.Numbers.Integral
import FlowEngine.Proofs.Payloads.Kept
import FlowEngine.Proofs.Payloads.Typed
import FlowEngine.Proofs.Wire.Reencoded
import FlowEngine.Proofs.Wire.Trees
import FlowEngine.Proofs.Payloads.Plain
import FlowEngine.Proofs.Payloads.Stringified
import FlowEngine.Proofs.Aggregation.Merged
import FlowEngine.Proofs.Windows
import FlowEngine.Proofs.Storage.Scoped
import FlowEngine.Proofs.Run.Identities
import FlowEngine.Proofs.Wire.Descriptions
import FlowEngine.Proofs.Payloads.Paths
import FlowEngine.Proofs.Derivations
