import WgPortal.Adapters.Database
import WgPortal.Adapters.ExpiryCleanup
import WgPortal.Adapters.ExpiryDeletion
import WgPortal.Adapters.ExpiryRenewal
import WgPortal.Adapters.LockExclusion
import WgPortal.Adapters.Metrics
import WgPortal.Adapters.NodeSyncLock
import WgPortal.Adapters.OfflineStatuses
import WgPortal.Adapters.Orphans
import WgPortal.Adapters.PeerDeletion
import WgPortal.Adapters.PeerStatuses
import WgPortal.Adapters.Repository
import WgPortal.Adapters.StatusCalls
import WgPortal.Adapters.StatusOwnership
import WgPortal.Api.Cors
import WgPortal.Api.Csrf
import WgPortal.Api.Identifiers
import WgPortal.Api.InterfaceModel
import WgPortal.Api.OauthReturn
import WgPortal.Api.PeerModel
import WgPortal.Api.Provisioning
import WgPortal.Api.ProvisioningEndpoint
import WgPortal.Api.RequestRights
import WgPortal.Api.RoundTrip
import WgPortal.Api.Sessions
import WgPortal.Api.SyncAcknowledgement
import WgPortal.Api.SyncCascade
import WgPortal.Api.SyncEndpoint
import WgPortal.Api.TTLLock
import WgPortal.Api.UserModel
import WgPortal.Api.WebAuthentication
import WgPortal.App.BaseURL
import WgPortal.App.BaseURLReading
import WgPortal.App.Debounce
import WgPortal.App.EventBus
import WgPortal.App.Fanout
import WgPortal.App.FanoutStart
import WgPortal.App.FanoutTopics
import WgPortal.App.GormEncryption
import WgPortal.App.MigrateV1
import WgPortal.App.MigrateV1Rerun
import WgPortal.App.SelfDetection
import WgPortal.Auth.ActiveUsers
import WgPortal.Auth.AdminFlag
import WgPortal.Auth.Authenticator
import WgPortal.Auth.Ldap
import WgPortal.Auth.Login
import WgPortal.Auth.LoginFilter
import WgPortal.Auth.OwnProvider
import WgPortal.Auth.PasskeyRuns
import WgPortal.Auth.Passkeys
import WgPortal.Auth.Steps
import WgPortal.Auth.Takeover
import WgPortal.Config.Config
import WgPortal.Config.DayCount
import WgPortal.Config.Duration
import WgPortal.ConfigFile.FileNames
import WgPortal.ConfigFile.PeerFile
import WgPortal.ConfigFile.PeerQrCode
import WgPortal.ConfigFile.ReadBack
import WgPortal.ConfigFile.Recovery
import WgPortal.ConfigFile.Template
import WgPortal.Domain.Basic
import WgPortal.Domain.Cidr
import WgPortal.Domain.CidrArithmetic
import WgPortal.Domain.CidrConversions
import WgPortal.Domain.DefaultEndpoint
import WgPortal.Domain.Interface
import WgPortal.Domain.Peer
import WgPortal.Domain.PhysicalPeer
import WgPortal.Domain.RoutingTable
import WgPortal.Domain.User
import WgPortal.Library.Base64
import WgPortal.Library.Base64Text
import WgPortal.Library.BigEndian
import WgPortal.Library.BlockCipher
import WgPortal.Library.Calendar
import WgPortal.Library.CommentLines
import WgPortal.Library.Fallible
import WgPortal.Library.Interleaving
import WgPortal.Library.LdapFilter
import WgPortal.Library.Net
import WgPortal.Library.NetIP
import WgPortal.Library.NetIPRange
import WgPortal.Library.NetIPText
import WgPortal.Library.NetURL
import WgPortal.Library.Observation
import WgPortal.Library.Origin
import WgPortal.Library.PlainURL
import WgPortal.Library.Program
import WgPortal.Library.Redirect
import WgPortal.Library.Replacement
import WgPortal.Library.Search
import WgPortal.Library.SectionFile
import WgPortal.Library.Table
import WgPortal.Library.Transition
import WgPortal.Route.AllowedIPs
import WgPortal.Route.RouteSync
import WgPortal.Route.Routes
import WgPortal.Route.RuleCleanup
import WgPortal.Route.RuleSync
import WgPortal.Route.Rules
import WgPortal.Route.SyncRoutes
import WgPortal.Route.SyncRoutesRuns
import WgPortal.Users.LdapMirror
import WgPortal.Users.LdapReEnable
import WgPortal.Users.LdapSync
import WgPortal.Users.Manager
import WgPortal.Users.Rights
import WgPortal.Users.Steps
import WgPortal.Users.UnknownUsers
import WgPortal.WgController.Local
import WgPortal.WgController.LocalInterfaceRuns
import WgPortal.WgController.LocalInterfaces
import WgPortal.WgController.LocalUpdate
import WgPortal.WgController.MikrotikDurations
import WgPortal.WgController.MikrotikEndpoint
import WgPortal.WgController.MikrotikInterface
import WgPortal.WgController.MikrotikObjects
import WgPortal.WgController.MikrotikPeerSettings
import WgPortal.WgController.MikrotikPeerTasks
import WgPortal.WgController.MikrotikPeers
import WgPortal.WgController.MikrotikRequests
import WgPortal.WgController.MikrotikRouter
import WgPortal.WgController.MikrotikSave
import WgPortal.WgController.Plain
import WgPortal.WgController.Presence
import WgPortal.WgController.SavedPeers
import WgPortal.WgController.Wgctrl
import WgPortal.WireGuard.ActiveCache
import WgPortal.WireGuard.ActivePeers
import WgPortal.WireGuard.AddressRetry
import WgPortal.WireGuard.AllowedIPs
import WgPortal.WireGuard.Cluster
import WgPortal.WireGuard.DefaultPeers
import WgPortal.WireGuard.Expiry
import WgPortal.WireGuard.FreshAddresses
import WgPortal.WireGuard.FreshNetworks
import WgPortal.WireGuard.Import
import WgPortal.WireGuard.ImportRestore
import WgPortal.WireGuard.InterfaceHooks
import WgPortal.WireGuard.Interfaces
import WgPortal.WireGuard.Manager
import WgPortal.WireGuard.OrphanCleanup
import WgPortal.WireGuard.PeerAddresses
import WgPortal.WireGuard.PeerChanges
import WgPortal.WireGuard.PeerConvergence
import WgPortal.WireGuard.PeerCreation
import WgPortal.WireGuard.PeerEvents
import WgPortal.WireGuard.PeerKeys
import WgPortal.WireGuard.PeerLimit
import WgPortal.WireGuard.PeerSteps
import WgPortal.WireGuard.PeerWrites
import WgPortal.WireGuard.Peers
import WgPortal.WireGuard.Reconcile
import WgPortal.WireGuard.Restore
import WgPortal.WireGuard.RestoreDevices
import WgPortal.WireGuard.RestoreRows
import WgPortal.WireGuard.RestoreSteps
import WgPortal.WireGuard.Roaming
import WgPortal.WireGuard.SearchLoops
import WgPortal.WireGuard.StateChange
import WgPortal.WireGuard.Statistics
import WgPortal.WireGuard.StatusPublishing
import WgPortal.WireGuard.StuckStatuses
import WgPortal.WireGuard.Sync
import WgPortal.WireGuard.SyncConcurrent
import WgPortal.WireGuard.SyncLocked
import WgPortal.WireGuard.SyncSkip
import WgPortal.WireGuard.TTLRenewal
import WgPortal.WireGuard.UserDeletion
import WgPortal.WireGuard.UserEvents
import WgPortal.WireGuard.UserState
import WgPortal.WireGuard.ImportNew
