import Agnocast.Lib.Transition
import Agnocast.Lib.Table
import Agnocast.Lib.Window
import Agnocast.Lib.RingBuffer
import Agnocast.Lib.SharedPtr
import Agnocast.Kmod.Basic
import Agnocast.Kmod.MemoryAllocator
import Agnocast.Kmod.Topic
import Agnocast.Kmod.Entries
import Agnocast.Kmod.DomainRule
import Agnocast.Kmod.Ioctl
import Agnocast.Kmod.Process
import Agnocast.Kmod.System
import Agnocast.Kmod.ExitWorker
import Agnocast.Kmod.CountQueries
import Agnocast.Store.Loops
import Agnocast.Store.Endpoint
import Agnocast.Store.Consistent
import Agnocast.Store.Message
import Agnocast.Store.Delivery
import Agnocast.Rules.Registration
import Agnocast.Store.Evolution
import Agnocast.Store.Moves
import Agnocast.Store.Steps
import Agnocast.Store.History
import Agnocast.Rules.Grouping
import Agnocast.Delivery.Notify
import Agnocast.Delivery.Receive
import Agnocast.Store.Creation
import Agnocast.Store.Lifetime
import Agnocast.Store.Content
import Agnocast.Rules.Separation
import Agnocast.Store.Zombies
import Agnocast.Store.References
import Agnocast.Store.DeadEntries
import Agnocast.Memory.Report
import Agnocast.Delivery.Retry
import Agnocast.Delivery.Take
import Agnocast.Delivery.DepthTrimming
import Agnocast.Delivery.ReleasedAddresses
import Agnocast.Process.Changes
import Agnocast.Memory.HeldEntries
import Agnocast.Service.ResponseTopic
import Agnocast.Service.ServiceCalls
import Agnocast.Service.CallMatching
import Agnocast.Heaphook.Tlsf
import Agnocast.Heaphook.TlsfSafety
import Agnocast.Heaphook.Dispatch
import Agnocast.Heaphook.DispatchSafety
import Agnocast.Heaphook.DispatchRuns
import Agnocast.Agnocastlib.ClockTimer
import Agnocast.Agnocastlib.ClockTimerSafety
import Agnocast.Agnocastlib.ReadyExecutables
import Agnocast.Agnocastlib.GroupExclusion
import Agnocast.Memory.Mapping
import Agnocast.Memory.Pools
import Agnocast.Process.ExitCleanup
import Agnocast.Process.ExitIdentity
import Agnocast.Agnocastlib.TakeSubscription
import Agnocast.Agnocastlib.HandleSafety
import Agnocast.Agnocastlib.IpcSharedPtr
import Agnocast.Agnocastlib.HandleSteps
import Agnocast.Agnocastlib.HandleProtocol
import Agnocast.Agnocastlib.LoanAccounting
import Agnocast.Agnocastlib.CallbackInfo
import Agnocast.Agnocastlib.Destruction
import Agnocast.Delivery.ExitedPublisher
import Agnocast.Process.BridgeManager
import Agnocast.Process.UnlinkDaemon
import Agnocast.Process.DiscoveryAgent
import Agnocast.Process.ShmNames
import Agnocast.Process.ShmNameSafety
import Agnocast.Agnocastlib.EpollUpdate
import Agnocast.Agnocastlib.EpollUpdateSafety
import Agnocast.Delivery.NewEntries
import Agnocast.Agnocastlib.SubscriptionEvents
import Agnocast.Agnocastlib.SubscriptionSteps
import Agnocast.Agnocastlib.WakeupSafety
import Agnocast.Agnocastlib.IsolatedExecutor
import Agnocast.Agnocastlib.IsolatedExecutorSafety
import Agnocast.Agnocastlib.GroupRemoval
import Agnocast.Agnocastlib.ChildCancel
import Agnocast.Agnocastlib.OnlyIsolatedExecutor
import Agnocast.Agnocastlib.OnlyIsolatedExecutorSafety
import Agnocast.Agnocastlib.OnlyIsolatedSpin
import Agnocast.Agnocastlib.OnlyIsolatedRuns
import Agnocast.Agnocastlib.SignalHandler
import Agnocast.Agnocastlib.SignalHandlerSafety
import Agnocast.Agnocastlib.SignalHandlerCycles
import Agnocast.Agnocastlib.SignalHandling
import Agnocast.Lib.Dict
import Agnocast.Bridge.BridgeDecider
import Agnocast.Bridge.BridgeMatching
import Agnocast.Lib.Wire
import Agnocast.Bridge.BridgeMsg
import Agnocast.Bridge.WireFormat
import Agnocast.MessageFilters.Basic
import Agnocast.MessageFilters.ExactTime
import Agnocast.MessageFilters.ExactMatching
import Agnocast.Lib.Loop
import Agnocast.MessageFilters.ApproximateTime
import Agnocast.MessageFilters.ApproximateSteps
import Agnocast.MessageFilters.ApproximateInvariant
import Agnocast.MessageFilters.ApproximateOutput
import Agnocast.MessageFilters.ApproximateReference
import Agnocast.MessageFilters.ApproximateAgreement
import Agnocast.Lib.Fairness
import Agnocast.Process.ExitQueue
import Agnocast.Lib.Probing
import Agnocast.Kmod.NodeNames
import Agnocast.Rules.NodeNames
import Agnocast.Lib.Text
import Agnocast.Discovery.TypeRegistry
import Agnocast.Discovery.Introspection
import Agnocast.Discovery.TornWrites
import Agnocast.Agnocastlib.NodeParameters
import Agnocast.Agnocastlib.ParameterSafety
import Agnocast.Agnocastlib.ParameterStore
import Agnocast.Lib.SortUnique
import Agnocast.ThreadConfigurator.SystemScan
import Agnocast.ThreadConfigurator.ThreadConfig
import Agnocast.ThreadConfigurator.Apply
import Agnocast.ThreadConfigurator.UneditedTemplate
import Agnocast.Lib.CheckedInt
import Agnocast.Agnocastlib.TimerInfo
import Agnocast.Agnocastlib.TimerSchedule
import Agnocast.Agnocastlib.IntegerRange
import Agnocast.Bridge.RequestBuffer
import Agnocast.Heaphook.Reallocation
import Agnocast.Agnocastlib.ParameterBatch
import Agnocast.Lib.Index
import Agnocast.ThreadConfigurator.ParseYaml
import Agnocast.ThreadConfigurator.ConfiguratorNode
import Agnocast.ThreadConfigurator.CpuList
import Agnocast.ThreadConfigurator.TrackedGroups
import Agnocast.ThreadConfigurator.Accounting
import Agnocast.ThreadConfigurator.KnownTids
import Agnocast.ThreadConfigurator.Precedence
import Agnocast.ThreadConfigurator.Reapply
import Agnocast.Lib.WeakCache
import Agnocast.Bridge.GroupRegistry
import Agnocast.Bridge.ServiceBridge
import Agnocast.Bridge.ServiceBridgeLifecycle
import Agnocast.Bridge.PubsubBridge
import Agnocast.Bridge.PubsubBridgeLifecycle
import Agnocast.Process.LiveEndpoints
import Agnocast.Bridge.BridgedGraph
import Agnocast.Bridge.EchoFreedom
import Agnocast.Agnocastlib.DaemonCoverage
import Agnocast.Kmod.TopicQueries
import Agnocast.Lib.PyText
import Agnocast.Lib.Replay
import Agnocast.Discovery.DomainBridgeConfig
import Agnocast.Bridge.DomainRuleForcing
import Agnocast.Discovery.Snapshot
import Agnocast.Discovery.Gossip
import Agnocast.Discovery.GossipRequests
import Agnocast.Rules.RegisterTool
