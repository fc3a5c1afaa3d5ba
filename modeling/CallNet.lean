import CallNet.Api.AuthService
import CallNet.Api.CachedTables
import CallNet.Api.ConnectorService
import CallNet.Api.IvrHandler
import CallNet.Api.Otp
import CallNet.Api.RatePlans
import CallNet.Api.RateService
import CallNet.Api.Saves
import CallNet.Api.SettingsCalls
import CallNet.Api.SoundHandler
import CallNet.Api.SqlMigrations
import CallNet.Edge.CdrShipping
import CallNet.Edge.CdrWire
import CallNet.Edge.Directory
import CallNet.Edge.EventSocket
import CallNet.Edge.VoicemailSync
import CallNet.Engine.AbuseGuard
import CallNet.Engine.ApiKeyService
import CallNet.Engine.AuditService
import CallNet.Engine.CallEffects
import CallNet.Engine.CallLog
import CallNet.Engine.CallMetrics
import CallNet.Engine.CallSystem
import CallNet.Engine.ConferenceCalls
import CallNet.Engine.ConferenceService
import CallNet.Engine.Database
import CallNet.Engine.DialPlan
import CallNet.Engine.EnqueueCaller
import CallNet.Engine.ExtensionRouting
import CallNet.Engine.FlowRunner
import CallNet.Engine.IvrFlow
import CallNet.Engine.IvrFlowCache
import CallNet.Engine.IvrSystem
import CallNet.Engine.JsNumbers
import CallNet.Engine.LookupCaches
import CallNet.Engine.MediaConnection
import CallNet.Engine.PgListener
import CallNet.Engine.PushService
import CallNet.Engine.QueueService
import CallNet.Engine.RateBook
import CallNet.Engine.Rating
import CallNet.Engine.Registrations
import CallNet.Engine.RouteHandlers
import CallNet.Engine.RoutedCall
import CallNet.Engine.RoutingRules
import CallNet.Engine.Schedules
import CallNet.Engine.SettingsMirror
import CallNet.Engine.SignalingServer
import CallNet.Engine.SipServer
import CallNet.Engine.TrunkService
import CallNet.Engine.Voicemail
import CallNet.Engine.Wallet
import CallNet.Engine.WebhookDispatcher
import CallNet.Engine.WidgetRoutes
import CallNet.Engine.WriteQueue
import CallNet.ForStd.BufferedReader
import CallNet.ForStd.CacheAside
import CallNet.ForStd.EventLoop
import CallNet.ForStd.Lines
import CallNet.ForStd.LittleEndian
import CallNet.ForStd.Machine
import CallNet.ForStd.Minifloat
import CallNet.ForStd.OrdMap
import CallNet.ForStd.Peaks
import CallNet.ForStd.PosixPath
import CallNet.ForStd.PrefixCode
import CallNet.ForStd.Prog
import CallNet.ForStd.ReadCommitted
import CallNet.ForStd.ReadThrough
import CallNet.ForStd.RecentKeys
import CallNet.ForStd.Rounding
import CallNet.ForStd.Slots
import CallNet.ForStd.SplitOn
import CallNet.ForStd.Turns
import CallNet.ForStd.UndoHistory
import CallNet.ForStd.Utf8
import CallNet.ForStd.Xml
import CallNet.Spec.AbuseBans
import CallNet.Spec.AbuseWindow
import CallNet.Spec.Admission
import CallNet.Spec.AgentSelection
import CallNet.Spec.AiSessionEnd
import CallNet.Spec.AssignedExtensions
import CallNet.Spec.AuditTrail
import CallNet.Spec.BillingGates
import CallNet.Spec.BlockList
import CallNet.Spec.BridgePairing
import CallNet.Spec.BuilderGraph
import CallNet.Spec.BuilderHistory
import CallNet.Spec.CacheCoherence
import CallNet.Spec.CacheFreshness
import CallNet.Spec.CallPolicy
import CallNet.Spec.CallRecords
import CallNet.Spec.CallerIdOwner
import CallNet.Spec.CallerIdProof
import CallNet.Spec.Calm
import CallNet.Spec.CarrierCalls
import CallNet.Spec.CdrContract
import CallNet.Spec.CdrDelivery
import CallNet.Spec.Characters
import CallNet.Spec.Companding
import CallNet.Spec.ConferenceCapacity
import CallNet.Spec.ConferenceHosts
import CallNet.Spec.ConferenceRooms
import CallNet.Spec.ConferenceRoster
import CallNet.Spec.ConnectorSecrets
import CallNet.Spec.ConnectorUpdates
import CallNet.Spec.DailyCap
import CallNet.Spec.DebitEmission
import CallNet.Spec.DefaultPlan
import CallNet.Spec.DevicePaths
import CallNet.Spec.DialNormalization
import CallNet.Spec.DirectorySync
import CallNet.Spec.EffectKinds
import CallNet.Spec.EmergencyCalls
import CallNet.Spec.EventFraming
import CallNet.Spec.Fallback
import CallNet.Spec.FinalResponse
import CallNet.Spec.FlowBranching
import CallNet.Spec.FlowOutcomes
import CallNet.Spec.FlowOwnership
import CallNet.Spec.FlowPolling
import CallNet.Spec.HandlerKinds
import CallNet.Spec.InboundBilling
import CallNet.Spec.IpMatching
import CallNet.Spec.IvrFlowConvergence
import CallNet.Spec.Keeps
import CallNet.Spec.KeyOrigins
import CallNet.Spec.LegSources
import CallNet.Spec.ListenerClients
import CallNet.Spec.LogEviction
import CallNet.Spec.LostUpdates
import CallNet.Spec.MetricsTrace
import CallNet.Spec.MigrationsOnce
import CallNet.Spec.OneMediaServer
import CallNet.Spec.OpeningHours
import CallNet.Spec.OrphanLegs
import CallNet.Spec.OtpGuesses
import CallNet.Spec.Performs
import CallNet.Spec.PrefixMatch
import CallNet.Spec.PromptPaths
import CallNet.Spec.PushOwnership
import CallNet.Spec.QueueHooks
import CallNet.Spec.QueueOccupancy
import CallNet.Spec.QueueResponses
import CallNet.Spec.RateEstimate
import CallNet.Spec.RateOverrides
import CallNet.Spec.RateSelection
import CallNet.Spec.RateValidity
import CallNet.Spec.ReadOnlyBuilder
import CallNet.Spec.RegistrationExpiry
import CallNet.Spec.RequestFreshness
import CallNet.Spec.Resampling
import CallNet.Spec.RoutePolicy
import CallNet.Spec.RuleOwnership
import CallNet.Spec.SavedValues
import CallNet.Spec.SavedWork
import CallNet.Spec.SessionDiscipline
import CallNet.Spec.SettingsConvergence
import CallNet.Spec.SettingsSteps
import CallNet.Spec.SignalingPresence
import CallNet.Spec.StreamLifecycle
import CallNet.Spec.Substitution
import CallNet.Spec.TollFraud
import CallNet.Spec.TrunkBilling
import CallNet.Spec.TrunkNumbers
import CallNet.Spec.UserIndex
import CallNet.Spec.VoicemailFiles
import CallNet.Spec.VoicemailUploads
import CallNet.Spec.WalletDebit
import CallNet.Spec.WalletLedger
import CallNet.Spec.WavDecoding
import CallNet.Spec.WebhookDispatch
import CallNet.Spec.WidgetScope
import CallNet.Spec.WriteQueueDurability
import CallNet.Spec.WriteQueueOrder
import CallNet.Spec.XmlDocuments
import CallNet.Streaming.AiHandlers
import CallNet.Streaming.AudioCodec
import CallNet.Streaming.AudioUtil
import CallNet.Streaming.BrowserBridge
import CallNet.Streaming.CallRouter
import CallNet.Streaming.MediaProtocol
import CallNet.Streaming.MediaStream
import CallNet.Streaming.Twiml
import CallNet.Web.BuilderSaves
import CallNet.Web.BuilderStore
import CallNet.Web.RequestCache
