import SchcCoreconf.Lib.Fallible
import SchcCoreconf.Lib.Intervals
import SchcCoreconf.Lib.BitString
import SchcCoreconf.Lib.Sorted
import SchcCoreconf.Values
import SchcCoreconf.External
import SchcCoreconf.RuleIds
import SchcCoreconf.Lib.FirstMatch
import SchcCoreconf.Lib.Machine
import SchcCoreconf.Lib.Items
import SchcCoreconf.Allocation
import SchcCoreconf.AllocationMachine
import SchcCoreconf.AllocationReference
import SchcCoreconf.Codec
import SchcCoreconf.CanonicalOrder
import SchcCoreconf.Policy
import SchcCoreconf.Lib.Runs
import SchcCoreconf.Lib.Replicas
import SchcCoreconf.Lib.Relay
import SchcCoreconf.Context
import SchcCoreconf.Link
import SchcCoreconf.Selectors
import SchcCoreconf.Duplicate
import SchcCoreconf.Base64
import SchcCoreconf.Base64Machine
import SchcCoreconf.Management
import SchcCoreconf.Lib.BigEndian
import SchcCoreconf.TargetWidths
import SchcCoreconf.Lib.Arguments
import SchcCoreconf.Commands
import SchcCoreconf.CommandGrammar
import SchcCoreconf.DuplicateGrammar
import SchcCoreconf.Update
import SchcCoreconf.Leaves
import SchcCoreconf.TreeRules
import SchcCoreconf.Exchange
import SchcCoreconf.Flow
import SchcCoreconf.Lib.Loads
import SchcCoreconf.Lib.Sextets
import SchcCoreconf.Lib.Utf8
import SchcCoreconf.Report
import SchcCoreconf.Frames
import SchcCoreconf.Lib.CoapWire
import SchcCoreconf.Assumptions
import SchcCoreconf.RuleLeaves
import SchcCoreconf.DuplicateTree
import SchcCoreconf.Fixture.Documents
import SchcCoreconf.Fixture.Crates
import SchcCoreconf.Fixture.Grounding
import SchcCoreconf.Fixture.Duplicates
import SchcCoreconf.ContextInvariant
import SchcCoreconf.Operations
import SchcCoreconf.Backends
import SchcCoreconf.Isolation
import SchcCoreconf.Atomicity
import SchcCoreconf.UpdateAgreement
import SchcCoreconf.FrameSafety
import SchcCoreconf.Reapplication
import SchcCoreconf.OverrideSequence
import SchcCoreconf.DuplicateFrame
import SchcCoreconf.DuplicateReplay
import SchcCoreconf.Reloading
import SchcCoreconf.Correlation
import SchcCoreconf.LinkRoundTrip
import SchcCoreconf.Fixture.Flows
import SchcCoreconf.Fixture.Plans
import SchcCoreconf.FlowEncoding
import SchcCoreconf.FlowMatching
import SchcCoreconf.WidthMachine
import SchcCoreconf.Inspection
import SchcCoreconf.Fixture.Listings
import SchcCoreconf.RuleList
import SchcCoreconf.CoapDissection
import SchcCoreconf.UpdateExchange
import SchcCoreconf.AllocationRuns
import SchcCoreconf.CborSizes
import SchcCoreconf.Fixture.CborReader
import SchcCoreconf.Fixture.Costs
import SchcCoreconf.RpcCost
import SchcCoreconf.TargetFrame
import SchcCoreconf.WidthAgreement
import SchcCoreconf.ContextCheck
import SchcCoreconf.DuplicateExchange
import SchcCoreconf.ContextReplication
import SchcCoreconf.Endpoints
import SchcCoreconf.ResponseWait
import SchcCoreconf.PacketRelay
import SchcCoreconf.RpcRoundTrip
import SchcCoreconf.FlowPlanning
import SchcCoreconf.FlowInterleaving
