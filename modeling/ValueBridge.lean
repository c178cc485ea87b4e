import ValueBridge.Host.Equality
import ValueBridge.Host.Export
import ValueBridge.Host.Sized
import ValueBridge.Engine.Faults
import ValueBridge.Convert.ConfigFile
import ValueBridge.Query.Rows
import ValueBridge.Proofs.Convert.Accounting
import ValueBridge.Proofs.Convert.Agreement
import ValueBridge.Proofs.Convert.RoundTrip
import ValueBridge.Proofs.Engine.History
import ValueBridge.Proofs.Type.Join
import ValueBridge.Proofs.Engine.Ledger
import ValueBridge.Proofs.Engine.Typing
import ValueBridge.Proofs.Host.Encodable
import ValueBridge.Proofs.Convert.Acceptance
import ValueBridge.Proofs.Convert.Requests
import ValueBridge.Proofs.Query.Execution
import ValueBridge.Proofs.Query.Consumption
import ValueBridge.Proofs.Convert.Fitting
import ValueBridge.Proofs.Convert.TargetRoundTrip
import ValueBridge.Proofs.Convert.JsonRoundTrip
import ValueBridge.Proofs.Query.Echo
import ValueBridge.Proofs.Convert.StandIn
import ValueBridge.Proofs.Convert.Crowding
import ValueBridge.Proofs.Stored.Recorded
import ValueBridge.Proofs.Convert.StructOrder
import ValueBridge.Proofs.Convert.SameValue
import ValueBridge.Proofs.Convert.DecimalSiblings
import ValueBridge.Proofs.Convert.Instants
import ValueBridge.Proofs.Convert.Depth
import ValueBridge.Proofs.Convert.Handles
import ValueBridge.Proofs.Convert.UniformDecimals
import ValueBridge.Proofs.Json.Pointer
import ValueBridge.Proofs.Host.Exported
import ValueBridge.Proofs.Host.Integers
import ValueBridge.Proofs.Query.Registered
