import Custody.Archive
import Custody.Bytes
import Custody.Catalog
import Custody.Cipher.Argon2id
import Custody.Cipher.Blake2b
import Custody.Cipher.ChaCha20
import Custody.Cipher.Poly1305
import Custody.Cipher.Sealing
import Custody.Cipher.Square
import Custody.Client
import Custody.Connection
import Custody.Cost
import Custody.Daemon
import Custody.Decimal.Digits
import Custody.Decimal.Nearest
import Custody.Decimal.Shortest
import Custody.Disk.Basic
import Custody.Disk.Path
import Custody.Disk.Replacement
import Custody.Failure
import Custody.Fault
import Custody.Gateway
import Custody.Invocation
import Custody.Json.Basic
import Custody.Json.Canonical
import Custody.Json.Codec
import Custody.Json.Numeral
import Custody.Json.Reader
import Custody.Json.Schema
import Custody.Json.Tagged
import Custody.Json.Token
import Custody.Json.Writer
import Custody.Keeper
import Custody.Key.Entry
import Custody.Key.Id
import Custody.Key.Store
import Custody.Keyring
import Custody.Main
import Custody.Net.Address
import Custody.Net.Host
import Custody.Net.Network
import Custody.Proofs.Archive
import Custody.Proofs.Archive.Format
import Custody.Proofs.Archive.Refusal
import Custody.Proofs.Archive.Scan
import Custody.Proofs.Bytes
import Custody.Proofs.Catalog
import Custody.Proofs.Cipher.Sealing
import Custody.Proofs.Client.Exchange
import Custody.Proofs.Client.Numbering
import Custody.Proofs.Client.Reporting
import Custody.Proofs.Client.Transparency
import Custody.Proofs.Connection
import Custody.Proofs.Connection.Dialogue
import Custody.Proofs.Connection.Malformed
import Custody.Proofs.Connection.Step
import Custody.Proofs.Connection.Turn
import Custody.Proofs.Daemon
import Custody.Proofs.Decimal.Digits
import Custody.Proofs.Disk.Basic
import Custody.Proofs.Disk.Replacement
import Custody.Proofs.Except
import Custody.Proofs.Json.Codec
import Custody.Proofs.Json.Placement
import Custody.Proofs.Json.Reader
import Custody.Proofs.Json.Reordering
import Custody.Proofs.Json.Schema
import Custody.Proofs.Json.Tagged
import Custody.Proofs.Json.Token
import Custody.Proofs.Json.Unordered
import Custody.Proofs.Keeper
import Custody.Proofs.Keeper.Interruption
import Custody.Proofs.Key.Order
import Custody.Proofs.Key.Store
import Custody.Proofs.Keyring
import Custody.Proofs.Run
import Custody.Proofs.Secret
import Custody.Proofs.Server.Strangers
import Custody.Proofs.Service.Durability
import Custody.Proofs.Service.Recency
import Custody.Proofs.Service.Requests
import Custody.Proofs.Service.Saving
import Custody.Proofs.Service.Schedule
import Custody.Proofs.Snapshot
import Custody.Proofs.Text.Base64
import Custody.Proofs.Text.Canonical
import Custody.Proofs.Time.Calendar
import Custody.Proofs.Time.Instant
import Custody.Proofs.Vault.Damage
import Custody.Proofs.Vault.Ledger
import Custody.Proofs.Vault.Reopening
import Custody.Proofs.Wire.Fetching
import Custody.Proofs.Wire.Frame
import Custody.Proofs.Wire.Framing
import Custody.Proofs.Wire.Message
import Custody.Proofs.Wire.Order
import Custody.Proofs.Wire.Stream
import Custody.Proofs.Wire.Truncation
import Custody.Secret
import Custody.Server
import Custody.Service
import Custody.Settings
import Custody.Snapshot
import Custody.Text.Base64
import Custody.Text.Blank
import Custody.Text.Number
import Custody.Text.Quoted
import Custody.Text.Read
import Custody.Text.Unadorned
import Custody.Text.Visible
import Custody.Time.Calendar
import Custody.Time.Instant
import Custody.Time.Reader
import Custody.Toml.Assembly
import Custody.Toml.Basic
import Custody.Toml.Document
import Custody.Toml.Scalar
import Custody.Toml.Text
import Custody.Vault
import Custody.Wire.FailureKind
import Custody.Wire.Frame
import Custody.Wire.Request
import Custody.Wire.Response
import Custody.Wire.Room
import Custody.Wire.Stream
