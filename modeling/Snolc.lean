import Snolc.ByteOrder
import Snolc.PollIo
import Snolc.SlotTable
import Snolc.GuardedRuns
import Snolc.AsyncTask
import Snolc.Precedence
import Snolc.QueueLogs
import Snolc.LossyQueue
import Snolc.ScriptedIo
import Snolc.ByteFeed
import Snolc.WireFormat
import Snolc.WireCodec
import Snolc.WireBoundaries
import Snolc.MuxFrame
import Snolc.MuxConnection
import Snolc.MuxSession
import Snolc.CoreIo
import Snolc.MuxReaders
import Snolc.MuxDatagrams
import Snolc.MuxOutbound
import Snolc.MuxOutbox
import Snolc.MuxLedger
import Snolc.MuxWrites
import Snolc.MuxArrivals
import Snolc.MuxPendingRead
import Snolc.MuxInbox
import Snolc.MuxDelivery
import Snolc.MuxCalls
import Snolc.MuxReceiveBudget
import Snolc.MuxReceiveLimit
import Snolc.MuxFaithfulReads
import Snolc.MuxEndpoint
import Snolc.MuxTraffic
import Snolc.MuxEndpointBooks
import Snolc.MuxOpenOrder
import Snolc.MuxControlOnce
import Snolc.MuxTables
import Snolc.MuxIdSpaces
import Snolc.MuxAccepted
import Snolc.MuxIoInvariants
import Snolc.MuxOpenPipe
import Snolc.MuxLink
import Snolc.MuxBackpressure
import Snolc.MuxPeerClose
import Snolc.MuxUserStreams
import Snolc.MuxTaskReads
import Snolc.MuxTaskWrites
import Snolc.MuxPolicy
import Snolc.MuxPolicyAgreement
import Snolc.EngineHost
import Snolc.FlowRecords
import Snolc.EngineSession
import Snolc.EngineTunnel
import Snolc.EngineFrame
import Snolc.EngineReplies
import Snolc.EngineClientFlows
import Snolc.EngineUserStreams
import Snolc.EngineFlowScope
import Snolc.EngineHandles
import Snolc.EngineAdmission
import Snolc.EngineAnswers
import Snolc.EngineFlowRelease
import Snolc.MuxOffers
import Snolc.EngineServing
import Snolc.EngineOpenResponses
import Snolc.CheckedSlice
import Snolc.Decimals
import Snolc.EngineLoop
import Snolc.EngineLifecycle
import Snolc.EngineSessions
import Snolc.StackFragment
import Snolc.StackReassembly
import Snolc.ReassemblySlots
import Snolc.ReassemblyPool
import Snolc.ReassemblyProvenance
import Snolc.StackDatagram
import Snolc.ReassemblyRoundTrip
import Snolc.ReassemblyExtents
import Snolc.HandleTable
import Snolc.HandleRuns
import Snolc.KeyedList
import Snolc.StackPackets
import Snolc.StackBridge
import Snolc.StackPorts
import Snolc.StackResources
import Snolc.StackBooks
import Snolc.StackStreams
import Snolc.StackTick
import Snolc.StackPoll
import Snolc.StackRuns
import Snolc.StackAccounts
import Snolc.StackOrphans
import Snolc.StackOffers
import Snolc.StackPreparation
import Snolc.ControlSocket
import Snolc.ControlFrames
import Snolc.ControlLink
import Snolc.ControlRoundTrip
import Snolc.CliStartup
import Snolc.CliDeadlock
import Snolc.CliEnding
import Snolc.SdkPump
import Snolc.SdkDatagramPump
import Snolc.SdkDatagramLog
import Snolc.LogFile
import Snolc.ModuleIo
import Snolc.LexicalPath
import Snolc.PackageLocks
import Snolc.Configuration
import Snolc.StackBudget
import Snolc.StackDemux
import Snolc.MuxLimits
import Snolc.EngineIoBudget
import Snolc.PartialPosts
import Snolc.StackFrames
import Snolc.ReassemblyRetry
import Snolc.StackTokens
import Snolc.StackUdpPorts
import Snolc.StackTraffic
import Snolc.StackLedger
import Snolc.StackLedgerTicks
import Snolc.StackLoopback
import Snolc.StackIsolation
import Snolc.ResolvedAddresses
import Snolc.ConfigSizes
import Snolc.LogRecord
import Snolc.ModuleIoAgreement
import Snolc.SdkPumpArithmetic
import Snolc.LogDrain
import Snolc.ModuleCalls
import Snolc.MuxSpeech
import Snolc.MuxDialogue
import Snolc.MuxFlowAgreement
import Snolc.ControlService
import Snolc.MuxDatagramLink
