import QbbNet.SimulatorSlots
import QbbNet.SenderQueues
import QbbNet.PauseMirror
import QbbNet.Delivery
import QbbNet.ArbiterProgress
import QbbNet.BackPressure
import QbbNet.TurnFairness
import QbbNet.EcmpSplit
import QbbNet.FlowAffinity
import QbbNet.LinkReport
import QbbNet.Watermarks
import QbbNet.IngressOrder
import QbbNet.ControlOrder
import QbbNet.SamplingRuns
import QbbNet.SizeCdfTable
import QbbNet.TopologyChecks
import QbbNet.WeightGrammar
import QbbNet.DropTraces
import QbbNet.LinkUtilization
import QbbNet.MacQueuePurge
import QbbNet.PacketClass
import QbbNet.RefusedPolls
import QbbNet.DemandRegistrations
import QbbNet.FlowSinks
import QbbNet.TestDelivery
import QbbNet.RouteRecomputation
import QbbNet.FlowAccounting
import QbbNet.FlowPaths
import QbbNet.LinkTransport
import QbbNet.Fragmentation
import QbbNet.Reassembly
import QbbNet.FragmentTimeouts
