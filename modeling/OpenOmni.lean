import OpenOmni.Session.OpenRequests
import OpenOmni.Session.ArmedHint
import OpenOmni.Session.TurnStart
import OpenOmni.Session.WriterTurns
import OpenOmni.Loop.RetryChain
import OpenOmni.Llm.LeaseRun
import OpenOmni.Llm.FailoverRun
import OpenOmni.Session.OwnerOriginRun
import OpenOmni.Gate.ConsultLoop
import OpenOmni.Gate.Replay
import OpenOmni.Gate.RowOrder
import OpenOmni.Session.Creation
import OpenOmni.Compaction.Guard
import OpenOmni.Channels.Custody
import OpenOmni.Channels.SendRun
import OpenOmni.Machines.GenerationRun
import OpenOmni.Machines.AttachmentRun
import OpenOmni.Machines.CapacityRun
import OpenOmni.Machines.ExportsConfined
import OpenOmni.Machines.HostStream
import OpenOmni.Machines.PtyRun
import OpenOmni.Gateway.SpecReading
import OpenOmni.Loop.Continuations
import OpenOmni.Session.OpenTurnPages
import OpenOmni.Fold.SettledWaves
import OpenOmni.Protocol.CronWindow
import OpenOmni.Session.GenerationsRun
import OpenOmni.Loop.BudgetReplayRun
import OpenOmni.Session.EntityForwardRun
import OpenOmni.Machines.PtyDecodeRun
import OpenOmni.Machines.PtyControl
import OpenOmni.Compaction.SpeculateSafety
import OpenOmni.Compaction.CutHistory
import OpenOmni.Compaction.SummarizerWindow
import OpenOmni.Channels.Tables
import OpenOmni.Channels.ChunkRun
import OpenOmni.Session.ApprovalBudget
import OpenOmni.Alarms.WatchRun
import OpenOmni.Machines.PlacementOrder
import OpenOmni.Channels.InboundOnceRun
import OpenOmni.Llm.ProviderPairs
import OpenOmni.Channels.RouteRecord
import OpenOmni.Channels.Blacklist
import OpenOmni.Channels.Dedupe
import OpenOmni.Machines.CellOutput
import OpenOmni.Channels.Automations
import OpenOmni.Loop.ToolOutput
import OpenOmni.Machines.Framing
import OpenOmni.Compaction.Durable
import OpenOmni.Machines.PeerRequests
import OpenOmni.Activity.Reconcile
