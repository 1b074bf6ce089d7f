import Rustchat.Replay
import Rustchat.StoreIndex
import Rustchat.UserTargets
import Rustchat.Attach
import Rustchat.SeqOrder
import Rustchat.ChannelSubs
import Rustchat.WireEvents
import Rustchat.DownTime
import Rustchat.Client
import Rustchat.UnreadSync
import Rustchat.Posts
import Rustchat.LiveSync
import Rustchat.Lib.Html
import Rustchat.Mentions
import Rustchat.ClusterBroadcast
import Rustchat.PostFinality
import Rustchat.WriteAccess
import Rustchat.ThreadAccess
import Rustchat.HubPresence
import Rustchat.PresenceRegistry
import Rustchat.ConnectionLimit
import Rustchat.RunConnection
import Rustchat.LossDetection
import Rustchat.Lib.Page
import Rustchat.Threads
import Rustchat.EmailWorker
import Rustchat.EmailAccounts
import Rustchat.Lib.FirstMatch
import Rustchat.MessageService
import Rustchat.ThreadStore
import Rustchat.ActiveTab
import Rustchat.ClientSocket
import Rustchat.MessageStore
import Rustchat.MessageRun
import Rustchat.ScrollBack
import Rustchat.CleanLists
import Rustchat.CompleteLists
import Rustchat.Calls.LostUpdates
import Rustchat.Calls.CallRemoval
import Rustchat.Calls.ScreenShare
import Rustchat.Calls.CallHost
import Rustchat.Calls.CallTimeouts
import Rustchat.Calls.ChannelCalls
import Rustchat.Calls.SfuManager
import Rustchat.Calls.IceCandidates
import Rustchat.Calls.SessionIds
import Rustchat.CircuitBreaker
import Rustchat.OauthExchange
import Rustchat.PasswordReset
import Rustchat.ResetLimits
import Rustchat.RateLimit
import Rustchat.Unreads
import Rustchat.UnreadPositions
import Rustchat.UnreadIncrements
import Rustchat.UnreadRepair
import Rustchat.ThreadPages
import Rustchat.ChannelPages
import Rustchat.ReplyCounts
import Rustchat.ThreadCounts
import Rustchat.MemberCounts
import Rustchat.Policies
import Rustchat.Reconciliation
import Rustchat.UnreadWrites
import Rustchat.MemberEvents
import Rustchat.EmailWorkers
import Rustchat.KeycloakSync
import Rustchat.SyncOwnership
import Rustchat.ActivityFeed
import Rustchat.Lib.Owned
import Rustchat.Lib.Cascade
import Rustchat.Retention
import Rustchat.SidebarCategories
import Rustchat.SidebarUpdates
import Rustchat.SidebarIsolation
import Rustchat.SidebarAnswers
import Rustchat.SidebarPartition
import Rustchat.SidebarRoundTrip
import Rustchat.UploadSessions
import Rustchat.UploadRuns
import Rustchat.DirectChannels
import Rustchat.DirectRuns
import Rustchat.MemberRoles
import Rustchat.MmIdForms
import Rustchat.Calls.HostEvents
import Rustchat.OauthLogin
import Rustchat.SsoIdentities
import Rustchat.Lib.Msgpack
import Rustchat.MsgpackDecode
import Rustchat.MsgpackRoundTrip
import Rustchat.MsgpackSafety
import Rustchat.Lib.Words
import Rustchat.MentionPatterns
import Rustchat.IncrementalSync
import Rustchat.UnreadTeams
import Rustchat.SyncRequirements
import Rustchat.QuietHours
import Rustchat.AdminRoles
import Rustchat.DirectNames
import Rustchat.PostSearch
import Rustchat.UnreadWindow
import Rustchat.ListPosts
import Rustchat.MentionActivities
import Rustchat.CallbackUrls
import Rustchat.BytePrefixes
import Rustchat.EmailBackoff
import Rustchat.Lib.Slice
import Rustchat.MarkdownTransforms
import Rustchat.MarkdownToggles
import Rustchat.LinePrefixes
import Rustchat.CodeBlocks
import Rustchat.ReactionEvents
import Rustchat.ReactionCalls
import Rustchat.ThreadDrafts
import Rustchat.TemplateRenderer
import Rustchat.Lib.WebUrl
import Rustchat.RedirectPaths
import Rustchat.OidcGroups
import Rustchat.OauthRedemptions
import Rustchat.OauthStates
