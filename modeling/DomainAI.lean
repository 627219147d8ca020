import DomainAI.Data.Calls
import DomainAI.Data.ChatEdits
import DomainAI.Data.ChatFrame
import DomainAI.Data.ChatRepository
import DomainAI.Data.Chats
import DomainAI.Data.ConversationList
import DomainAI.Data.ConversationStore
import DomainAI.Data.CrashSafety
import DomainAI.Data.EndedTurns
import DomainAI.Data.FailedSaves
import DomainAI.Data.History
import DomainAI.Data.HistoryBudget
import DomainAI.Data.HistoryCodec
import DomainAI.Data.HostString
import DomainAI.Data.LegacyRecovery
import DomainAI.Data.ModelNames
import DomainAI.Data.ModelStorage
import DomainAI.Data.Models
import DomainAI.Data.NameLabel
import DomainAI.Data.Numerals
import DomainAI.Data.OverlappingSaves
import DomainAI.Data.PromotionFailures
import DomainAI.Data.ReplyText
import DomainAI.Data.Restore
import DomainAI.Data.SendFrame
import DomainAI.Data.Settings
import DomainAI.Data.SharedDisk
import DomainAI.Data.StoredLists
import DomainAI.Data.Summaries
import DomainAI.Data.SummaryCoverage
import DomainAI.Data.Text
import DomainAI.Data.UndisturbedSend
import DomainAI.Data.UnreadHistory
import DomainAI.Data.WellFormed
import DomainAI.Inference.ActiveMarker
import DomainAI.Inference.ChatFormat
import DomainAI.Inference.DeviceTurns
import DomainAI.Inference.EventStream
import DomainAI.Inference.FailedDownloads
import DomainAI.Inference.ForegroundCount
import DomainAI.Inference.ForegroundReplies
import DomainAI.Inference.ForegroundWork
import DomainAI.Inference.FreeModels
import DomainAI.Inference.GpuCrashes
import DomainAI.Inference.HostAllowList
import DomainAI.Inference.LocalReplies
import DomainAI.Inference.MixedDownloads
import DomainAI.Inference.ModelCatalog
import DomainAI.Inference.ModelDownloader
import DomainAI.Inference.ModelLifecycle
import DomainAI.Inference.ModelManager
import DomainAI.Inference.ModelRuns
import DomainAI.Inference.OpenRouterClient
import DomainAI.Inference.PrivacyRouter
import DomainAI.Inference.RemoteEngine
import DomainAI.Inference.ResumableDownload
import DomainAI.Inference.SettingsInForce
import DomainAI.Inference.StreamedReply
import DomainAI.Inference.ThreadPlan
import DomainAI.Library.Anchored
import DomainAI.Library.Channel
import DomainAI.Library.Decoder
import DomainAI.Library.Fallible
import DomainAI.Library.Framing
import DomainAI.Library.Interference
import DomainAI.Library.Interleaving
import DomainAI.Library.Lines
import DomainAI.Library.Locality
import DomainAI.Library.Occurrences
import DomainAI.Library.Program
import DomainAI.Library.Regex
import DomainAI.Library.Replace
import DomainAI.Library.Resume
import DomainAI.Library.Run
import DomainAI.Library.Segments
import DomainAI.Library.StableSort
import DomainAI.Library.Utf8
import DomainAI.Llama.BridgedRunLoop
import DomainAI.Llama.ChatTemplate
import DomainAI.Llama.Completion
import DomainAI.Llama.CorePinning
import DomainAI.Llama.DecodingPositions
import DomainAI.Llama.Delivery
import DomainAI.Llama.ExclusiveContext
import DomainAI.Llama.FailedDecodes
import DomainAI.Llama.HandleAccounting
import DomainAI.Llama.LLamaAndroid
import DomainAI.Llama.ModifiedUtf8
import DomainAI.Llama.NativeObjects
import DomainAI.Llama.SpelledReplies
import DomainAI.Llama.TokenPieces
import DomainAI.Llama.ValidUtf8
import DomainAI.Privacy.CloudFailures
import DomainAI.Privacy.ConsentChain
import DomainAI.Privacy.DeviceCapabilities
import DomainAI.Privacy.KillSwitch
import DomainAI.Privacy.NetworkGuard
import DomainAI.Privacy.PiiRedactor
import DomainAI.Privacy.RedactedSegments
import DomainAI.Privacy.RedactionStability
import DomainAI.Privacy.RulesAlone
import DomainAI.Privacy.SurvivingNumbers
import DomainAI.Privacy.Transparency
import DomainAI.Ui.ProviderViews
import DomainAI.Ui.ReasoningSplit
import DomainAI.Ui.Session
import DomainAI.Ui.SingleSend
import DomainAI.Ui.StreamedBubble
import DomainAI.Ui.VisibleNotes
