import Strongbox.Accounts
import Strongbox.Binary64
import Strongbox.Binary64.Rounded
import Strongbox.Clock
import Strongbox.Digest.Hmac
import Strongbox.Digest.Pbkdf2
import Strongbox.Digest.Sha2
import Strongbox.Encoding.Base64
import Strongbox.Encoding.Hex
import Strongbox.Encoding.Percent
import Strongbox.Failure
import Strongbox.Gzip.Bits
import Strongbox.Gzip.Crc32
import Strongbox.Gzip.Deflate
import Strongbox.Gzip.Huffman
import Strongbox.Gzip.Member
import Strongbox.Http.App
import Strongbox.Http.Compression
import Strongbox.Http.CrossOrigin
import Strongbox.Http.Endpoint
import Strongbox.Http.Inflating
import Strongbox.Http.Message
import Strongbox.Http.Problem
import Strongbox.Http.Request
import Strongbox.Http.Response
import Strongbox.Http.Routing
import Strongbox.Http.Service
import Strongbox.Http.Status
import Strongbox.Http.Template
import Strongbox.Integrity.Canonical
import Strongbox.Integrity.Gate
import Strongbox.Integrity.HasherPool
import Strongbox.Json.Basic
import Strongbox.Json.Lexer
import Strongbox.Json.Parser
import Strongbox.Json.Printer
import Strongbox.Json.Shown
import Strongbox.Keyed
import Strongbox.Log
import Strongbox.Log.Format
import Strongbox.Main
import Strongbox.Password
import Strongbox.Proofs.Accounts.Enrolment
import Strongbox.Proofs.Accounts.Ownership
import Strongbox.Proofs.Accounts.Refusals
import Strongbox.Proofs.Accounts.Stability
import Strongbox.Proofs.Calendar
import Strongbox.Proofs.Encoding.Base64
import Strongbox.Proofs.Except
import Strongbox.Proofs.Gzip.Actions
import Strongbox.Proofs.Gzip.Format
import Strongbox.Proofs.Gzip.Fuel
import Strongbox.Proofs.Gzip.Inflation
import Strongbox.Proofs.Http.Answers
import Strongbox.Proofs.Http.Descriptors
import Strongbox.Proofs.Http.Inflating
import Strongbox.Proofs.Http.Layers
import Strongbox.Proofs.Http.Methods
import Strongbox.Proofs.Http.Registration
import Strongbox.Proofs.Http.Routes
import Strongbox.Proofs.Http.Runs
import Strongbox.Proofs.Http.TraceIds
import Strongbox.Proofs.Http.Transport
import Strongbox.Proofs.Http.Unauthenticated
import Strongbox.Proofs.Http.VerifiedWrites
import Strongbox.Proofs.Integrity.Canonical
import Strongbox.Proofs.Integrity.Gate
import Strongbox.Proofs.Integrity.HasherPool
import Strongbox.Proofs.Json.Dialects
import Strongbox.Proofs.Json.Members
import Strongbox.Proofs.Json.RoundTrip
import Strongbox.Proofs.Json.Scanning
import Strongbox.Proofs.Keyed
import Strongbox.Proofs.Password
import Strongbox.Proofs.Schema.Descriptors
import Strongbox.Proofs.Schema.Reading
import Strongbox.Proofs.Settings.DatabaseUrl
import Strongbox.Proofs.Settings.Dialect
import Strongbox.Proofs.Store.Evaluation
import Strongbox.Proofs.Store.Failures
import Strongbox.Proofs.Store.Interference
import Strongbox.Proofs.Store.Likeness
import Strongbox.Proofs.Store.Solo
import Strongbox.Proofs.Store.Turns
import Strongbox.Proofs.Sync.Classification
import Strongbox.Proofs.Sync.Convergence
import Strongbox.Proofs.Sync.Feasibility
import Strongbox.Proofs.Sync.Plan
import Strongbox.Proofs.Text.Decimal
import Strongbox.Proofs.Text.Fields
import Strongbox.Proofs.Text.Utf8
import Strongbox.Proofs.Timestamp
import Strongbox.Proofs.Token.Form
import Strongbox.Proofs.Token.Genuine
import Strongbox.Proofs.Token.HeaderFields
import Strongbox.Proofs.Token.Lifetime
import Strongbox.Proofs.Token.Rejections
import Strongbox.Proofs.Token.SigningKey
import Strongbox.Proofs.Vault.Acceptance
import Strongbox.Proofs.Vault.Atomicity
import Strongbox.Proofs.Vault.Commutation
import Strongbox.Proofs.Vault.Concurrency
import Strongbox.Proofs.Vault.Deeds
import Strongbox.Proofs.Vault.Effects
import Strongbox.Proofs.Vault.Footprint
import Strongbox.Proofs.Vault.Isolation
import Strongbox.Proofs.Vault.Legible
import Strongbox.Proofs.Vault.NoLostUpdate
import Strongbox.Proofs.Vault.OneByOne
import Strongbox.Proofs.Vault.Orderly
import Strongbox.Proofs.Vault.Race
import Strongbox.Proofs.Vault.Reachable
import Strongbox.Proofs.Vault.Readings
import Strongbox.Proofs.Vault.Replay
import Strongbox.Proofs.Vault.Resubmission
import Strongbox.Proofs.Vault.Runs
import Strongbox.Proofs.Vault.Success
import Strongbox.Proofs.Vault.Vocabulary
import Strongbox.Schema.Body
import Strongbox.Schema.Checked
import Strongbox.Schema.Coercion
import Strongbox.Schema.Item
import Strongbox.Settings.Address
import Strongbox.Settings.Basic
import Strongbox.Settings.Connection
import Strongbox.Settings.DatabaseUrl
import Strongbox.Settings.Dialect
import Strongbox.Settings.Dotenv
import Strongbox.Settings.Engine
import Strongbox.Settings.Load
import Strongbox.Store.Attempt
import Strongbox.Store.Database
import Strongbox.Store.Routine
import Strongbox.Store.Statements
import Strongbox.Store.Tables
import Strongbox.Sync.Classify
import Strongbox.Sync.States
import Strongbox.Text.Basic
import Strongbox.Text.Blank
import Strongbox.Text.Digit
import Strongbox.Text.Lines
import Strongbox.Text.Printable
import Strongbox.Text.Quoted
import Strongbox.Text.Utf8
import Strongbox.Text.Wide
import Strongbox.Text.Word
import Strongbox.Timestamp
import Strongbox.Token.Access
import Strongbox.Token.Algorithm
import Strongbox.Token.Claims
import Strongbox.Token.Compact
import Strongbox.Token.Header
import Strongbox.Token.Key
import Strongbox.Vault.Batch
import Strongbox.Vault.Call
import Strongbox.Vault.Caller
import Strongbox.Vault.Guard
import Strongbox.Vault.Read
