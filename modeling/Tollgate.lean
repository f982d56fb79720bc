import Tollgate.Bytes.Base64url
import Tollgate.Bytes.Hex
import Tollgate.Bytes.Number
import Tollgate.Bytes.Utf8
import Tollgate.Crypto.Ecdsa
import Tollgate.Crypto.Ed25519
import Tollgate.Crypto.Mac
import Tollgate.Crypto.Modular
import Tollgate.Crypto.Rsa
import Tollgate.Crypto.Secret
import Tollgate.Crypto.Sha2
import Tollgate.Text.Blank
import Tollgate.Text.Integer
import Tollgate.Text.Quoted
import Tollgate.Text.Unseen
import Tollgate.Decimal.Amount
import Tollgate.Decimal.Binary64
import Tollgate.Json.Printer
import Tollgate.Json.Record
import Tollgate.Json.Token
import Tollgate.Json.Tree
import Tollgate.Json.Value
import Tollgate.Time.Calendar
import Tollgate.Time.Duration
import Tollgate.Time.Instant
import Tollgate.Time.Stamp
import Tollgate.Net.Address
import Tollgate.Net.Endpoint
import Tollgate.Net.Errand
import Tollgate.Net.Host
import Tollgate.Net.Message
import Tollgate.Net.Percent
import Tollgate.Net.Target
import Tollgate.Net.Url
import Tollgate.Settings.Report
import Tollgate.Settings.Variables
import Tollgate.Keys.Algorithm
import Tollgate.Keys.Cache
import Tollgate.Keys.KeySet
import Tollgate.Keys.Published
import Tollgate.Keys.Source
import Tollgate.Token.Claims
import Tollgate.Token.Compact
import Tollgate.Token.Header
import Tollgate.Token.Signer
import Tollgate.Token.Verify
import Tollgate.Payment.Delivery
import Tollgate.Payment.Emitter
import Tollgate.Payment.Notice
import Tollgate.Payment.Wire
import Tollgate.Store.Memory
import Tollgate.Store.Plan
import Tollgate.Store.Remote
import Tollgate.Guard.BlockList
import Tollgate.Guard.Denylist
import Tollgate.Gateway.Admission
import Tollgate.Gateway.Backend
import Tollgate.Gateway.Credentials
import Tollgate.Gateway.Path
import Tollgate.Gateway.Refusal
import Tollgate.Gateway.Relay
import Tollgate.Gateway.Service
import Tollgate.Gateway.Settings
import Tollgate.Gateway.Stage
import Tollgate.Gateway.Traffic
import Tollgate.Simulator.Refusal
import Tollgate.Simulator.Service
import Tollgate.Simulator.Settings
import Tollgate.Proofs.Text.Cut
import Tollgate.Proofs.Text.Trim
import Tollgate.Proofs.Token.Reading
import Tollgate.Proofs.Token.Verification
import Tollgate.Proofs.Gateway.Admission
import Tollgate.Proofs.Gateway.Spelling
import Tollgate.Proofs.Gateway.Relay
import Tollgate.Proofs.Gateway.Credentials
import Tollgate.Proofs.Payment.Message
import Tollgate.Proofs.Payment.RoundTrip
import Tollgate.Proofs.Keys.Snapshots
import Tollgate.Proofs.Keys.Flight
import Tollgate.Proofs.Keys.Overtaking
import Tollgate.Proofs.Keys.Interval
import Tollgate.Proofs.Keys.Declared
import Tollgate.Proofs.Keys.Documents
import Tollgate.Proofs.Gateway.Entitlement
import Tollgate.Proofs.Guard.BlockList
import Tollgate.Proofs.Gateway.Traffic
import Tollgate.Proofs.Gateway.FailOpen
import Tollgate.Proofs.Net.Url
import Tollgate.Proofs.Gateway.Backend
import Tollgate.Proofs.Store.Memory
import Tollgate.Proofs.Guard.Window
import Tollgate.Proofs.Guard.Stored
import Tollgate.Proofs.Guard.History
import Tollgate.Proofs.Gateway.Stage
import Tollgate.Proofs.Gateway.Accounts
import Tollgate.Proofs.Gateway.Violations
import Tollgate.Proofs.Store.Crowd
import Tollgate.Proofs.Guard.Concurrent
import Tollgate.Proofs.Store.Remote
import Tollgate.Proofs.Bytes.Utf8
import Tollgate.Proofs.Net.Headers
import Tollgate.Proofs.Net.Errand
import Tollgate.Proofs.Payment.Delivery
import Tollgate.Proofs.Simulator.Payment
import Tollgate.Proofs.Opacity
import Tollgate.Proofs.Text.Quoted
import Tollgate.Proofs.Net.Password
import Tollgate.Proofs.Gateway.Redaction
import Tollgate.Proofs.Guard.Waiting
import Tollgate.Proofs.Gateway.RelayedHeaders
import Tollgate.Proofs.Decimal.Value
import Tollgate.Proofs.Payment.Literal
import Tollgate.Proofs.Simulator.Bounds
import Tollgate.Proofs.Token.Window
import Tollgate.Proofs.Store.Expiry
import Tollgate.Proofs.Time.Canonical
import Tollgate.Proofs.Store.Keyed
import Tollgate.Proofs.Guard.Sharing
import Tollgate.Proofs.Guard.Flag
import Tollgate.Proofs.Bytes.Hex
import Tollgate.Proofs.Text.Words
import Tollgate.Proofs.Token.Scopes
import Tollgate.Proofs.Settings.Entries
import Tollgate.Proofs.Gateway.Reading
import Tollgate.Proofs.Gateway.ScopeRules
import Tollgate.Proofs.Gateway.HopFields
import Tollgate.Proofs.Net.Address
import Tollgate.Proofs.Gateway.Exemption
import Tollgate.Proofs.Gateway.BodyLimit
import Tollgate.Proofs.Keys.Succession
import Tollgate.Proofs.Json.Values
import Tollgate.Proofs.Token.Minting
