import Xelt.Boringtun.Device.Anonymous
import Xelt.Boringtun.Device.Authorizations
import Xelt.Boringtun.Device.Blocking
import Xelt.Boringtun.Device.Calls
import Xelt.Boringtun.Device.Conservation
import Xelt.Boringtun.Device.DevLock
import Xelt.Boringtun.Device.Dispatch
import Xelt.Boringtun.Device.EventLoop
import Xelt.Boringtun.Device.Handlers
import Xelt.Boringtun.Device.Indices
import Xelt.Boringtun.Device.Maps
import Xelt.Boringtun.Device.Notices
import Xelt.Boringtun.Device.Peer
import Xelt.Boringtun.Device.Round
import Xelt.Boringtun.Device.Routing
import Xelt.Boringtun.Device.Sections
import Xelt.Boringtun.Device.Serialization
import Xelt.Boringtun.Device.Signals
import Xelt.Boringtun.Device.Signing
import Xelt.Boringtun.Device.Sockets
import Xelt.Boringtun.Device.Steps
import Xelt.Boringtun.Device.Submits
import Xelt.Boringtun.Device.Uapi
import Xelt.Boringtun.HttpApi.Agreement
import Xelt.Boringtun.HttpApi.Humans
import Xelt.Boringtun.HttpApi.Pool
import Xelt.Boringtun.HttpApi.RateLimit
import Xelt.Boringtun.HttpApi.Reaper
import Xelt.Boringtun.HttpApi.Registration
import Xelt.Boringtun.HttpApi.Service
import Xelt.Boringtun.HttpApi.Staleness
import Xelt.Boringtun.HttpApi.UapiClient
import Xelt.Boringtun.Noise.Channel
import Xelt.Boringtun.Noise.Cookies
import Xelt.Boringtun.Noise.Crypto
import Xelt.Boringtun.Noise.Flooding
import Xelt.Boringtun.Noise.Flow
import Xelt.Boringtun.Noise.Handshake
import Xelt.Boringtun.Noise.Injection
import Xelt.Boringtun.Noise.Inner
import Xelt.Boringtun.Noise.KeyAgreement
import Xelt.Boringtun.Noise.Link
import Xelt.Boringtun.Noise.OverflowChecks
import Xelt.Boringtun.Noise.Queue
import Xelt.Boringtun.Noise.RateLimiter
import Xelt.Boringtun.Noise.Reconnect
import Xelt.Boringtun.Noise.Rejection
import Xelt.Boringtun.Noise.Replay
import Xelt.Boringtun.Noise.Ring
import Xelt.Boringtun.Noise.Session
import Xelt.Boringtun.Noise.Signals
import Xelt.Boringtun.Noise.Slots
import Xelt.Boringtun.Noise.TimerBounds
import Xelt.Boringtun.Noise.Timers
import Xelt.Boringtun.Noise.Timestamps
import Xelt.Boringtun.Noise.Transcript
import Xelt.Boringtun.Noise.Tunn
import Xelt.Boringtun.Noise.Tunnel
import Xelt.Boringtun.Noise.TunnelRefines
import Xelt.Boringtun.Noise.Window
import Xelt.Boringtun.Noise.Wire
import Xelt.Boringtun.Payment.Codec
import Xelt.Boringtun.Payment.Deposit
import Xelt.Boringtun.Payment.Digest
import Xelt.Boringtun.Payment.Eip3009
import Xelt.Boringtun.Payment.Protocol
import Xelt.Boringtun.Payment.Quota
import Xelt.Boringtun.Payment.Signable
import Xelt.Boringtun.Payment.Tx
import Xelt.Client.Admin
import Xelt.Client.Net
import Xelt.Client.Restore
import Xelt.Client.Rollback
import Xelt.Client.Teardown
import Xelt.Client.Tunnel
import Xelt.Gateway.Aliases
import Xelt.Gateway.Orphans
import Xelt.Gateway.Provisioning
import Xelt.Gateway.Retirement
import Xelt.Gateway.Sessions
import Xelt.Lib.BitRing
import Xelt.Lib.Bytes
import Xelt.Lib.Checked
import Xelt.Lib.Fallible
import Xelt.Lib.Holders
import Xelt.Lib.Latch
import Xelt.Lib.OrderedMap
import Xelt.Lib.Progress
import Xelt.Lib.ReplayWindow
import Xelt.Lib.Rlp
import Xelt.Lib.Runs
import Xelt.Lib.Shell
import Xelt.Lib.Simulation
import Xelt.Lib.Tagged
import Xelt.Lib.Text
import Xelt.VpnServer.Expiry
import Xelt.VpnServer.Grants
import Xelt.VpnServer.Js
import Xelt.VpnServer.Ledger
import Xelt.VpnServer.Minutes
import Xelt.VpnServer.PaymentVerify
import Xelt.VpnServer.Pricing
import Xelt.VpnServer.Redemption
import Xelt.VpnServer.RenewWindow
import Xelt.VpnServer.Replay
import Xelt.VpnServer.Requests
import Xelt.VpnServer.SessionLedger
import Xelt.VpnServer.SessionStore
import Xelt.VpnServer.Settlements
import Xelt.VpnServer.Spelling
import Xelt.VpnServer.Turns
import Xelt.VpnServer.Verification
