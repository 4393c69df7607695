import OpenvpnControl.Library.Runs
import OpenvpnControl.Library.Requests
import OpenvpnControl.Library.Lifecycle
import OpenvpnControl.Library.Rows
import OpenvpnControl.Library.Refusals
import OpenvpnControl.Library.ReadModifyWrite
import OpenvpnControl.Library.GoMap
import OpenvpnControl.Library.Calendar
import OpenvpnControl.Library.LetterCase
import OpenvpnControl.Library.GoStrings
import OpenvpnControl.Library.Json
import OpenvpnControl.Library.Float64
import OpenvpnControl.Library.Inserts
import OpenvpnControl.Openvpn.Settings
import OpenvpnControl.Openvpn.Display
import OpenvpnControl.Paneltasks.Queue
import OpenvpnControl.Paneltasks.Pending
import OpenvpnControl.Paneltasks.Workers
import OpenvpnControl.Firewall.Stored
import OpenvpnControl.Agentsnapshot.Tunnel
import OpenvpnControl.Panel.FirewallPreview
import OpenvpnControl.Firewall.Agreement
import OpenvpnControl.Panel.Db
import OpenvpnControl.Panel.Settings
import OpenvpnControl.Panel.Drift
import OpenvpnControl.Panel.LostUpdate
import OpenvpnControl.Cert.Pem
import OpenvpnControl.Cert.Inventory
import OpenvpnControl.Cert.Indextxt
import OpenvpnControl.Handlers.Certificates
import OpenvpnControl.Certificates.Operations
import OpenvpnControl.Certificates.Describes
import OpenvpnControl.Certificates.Revoked
import OpenvpnControl.Certificates.Unique
import OpenvpnControl.Certificates.UserLeaves
import OpenvpnControl.Panel.MaterialTasks
import OpenvpnControl.Paneltasks.Stuck
import OpenvpnControl.Paneltasks.Restarts
import OpenvpnControl.Paneltasks.LastEnqueued
import OpenvpnControl.Limiter.Login
import OpenvpnControl.Auth.World
import OpenvpnControl.Auth.Recovery
import OpenvpnControl.Auth.Handler
import OpenvpnControl.Handlers.Totp
import OpenvpnControl.Handlers.Admins
import OpenvpnControl.Auth.Sessions
import OpenvpnControl.Auth.Deactivation
import OpenvpnControl.Auth.Guessing
import OpenvpnControl.Handlers.AdminPublic
import OpenvpnControl.Audit.Sanitize
import OpenvpnControl.Ccd.Render
import OpenvpnControl.Agentsnapshot.Snapshot
import OpenvpnControl.Panelbackup.Restore
import OpenvpnControl.Panelbackup.Export
import OpenvpnControl.Panelbackup.RoundTrip
import OpenvpnControl.Openvpn.Precedence
import OpenvpnControl.Openvpn.Ready
import OpenvpnControl.Ovpn.Profile
import OpenvpnControl.Ovpn.Lines
import OpenvpnControl.Library.Processes
import OpenvpnControl.Panel.Atomicity
import OpenvpnControl.Panel.MaterialLinks
import OpenvpnControl.Panel.RootRemoval
import OpenvpnControl.Migrate.Run
import OpenvpnControl.Panelbackup.Consistency
import OpenvpnControl.Frontend.RawDraft
import OpenvpnControl.Openvpn.DataCiphers
import OpenvpnControl.Cert.Serials
import OpenvpnControl.Cert.CrlRevocation
import OpenvpnControl.Cert.RevokedList
import OpenvpnControl.Certificates.Expiry
import OpenvpnControl.Crl.Generate
import OpenvpnControl.Agent.ClientSync
import OpenvpnControl.Agent.SourceHistory
import OpenvpnControl.Agent.LastActivity
import OpenvpnControl.Agent.SessionOverlap
import OpenvpnControl.Cert.IssuedText
import OpenvpnControl.Cert.IssuedRuns
import OpenvpnControl.Cert.IssuedTwice
import OpenvpnControl.Cert.Repeatable
import OpenvpnControl.Cert.IssuedOrder
import OpenvpnControl.Firewall.TunnelContexts
import OpenvpnControl.Firewall.StoredFormat
import OpenvpnControl.Firewall.RuleIds
import OpenvpnControl.Library.Base64
import OpenvpnControl.Auth.TotpSecret
import OpenvpnControl.Limiter.Peers
import OpenvpnControl.Handlers.Passwords
import OpenvpnControl.Panel.FirewallReload
import OpenvpnControl.Agent.ClientsJson
import OpenvpnControl.Library.Regexp
import OpenvpnControl.Agent.LogLines
import OpenvpnControl.Firewall.Netmasks
import OpenvpnControl.Library.SqlText
import OpenvpnControl.Panelbackup.InsertText
import OpenvpnControl.Frontend.Reorder
import OpenvpnControl.Library.Lcs
import OpenvpnControl.Frontend.ConfigDiff
import OpenvpnControl.Handlers.RemoteAddresses
import OpenvpnControl.Ccd.Lines
import OpenvpnControl.Library.Uri
import OpenvpnControl.Frontend.AppRoutes
import OpenvpnControl.Frontend.Dnsmasq
import OpenvpnControl.Library.Newest
import OpenvpnControl.Panelbackup.Files
import OpenvpnControl.Paneltasks.Waiting
import OpenvpnControl.Certificates.Delivery
import OpenvpnControl.Certificates.StaleCrl
import OpenvpnControl.Handlers.VpnUsers
import OpenvpnControl.Agentsnapshot.PolicyWorld
import OpenvpnControl.Agentsnapshot.StalePolicy
import OpenvpnControl.Panelbackup.Scheduler
import OpenvpnControl.Ovpn.Blocks
import OpenvpnControl.Handlers.ProfileMail
import OpenvpnControl.Handlers.Profile
import OpenvpnControl.Library.Grouping
import OpenvpnControl.Handlers.TrafficSamples
import OpenvpnControl.Handlers.ClientList
import OpenvpnControl.Cert.IndexEntries
import OpenvpnControl.Handlers.RootFiles
import OpenvpnControl.Certificates.Migration
import OpenvpnControl.Panel.LogPages
import OpenvpnControl.Agent.MetricTable
