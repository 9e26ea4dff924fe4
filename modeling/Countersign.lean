import Countersign.Bytes.Basic
import Countersign.Bytes.Hex
import Countersign.Digest.Sha256
import Countersign.Digest.Ripemd160
import Countersign.Digest.Hmac
import Countersign.Curve.Field
import Countersign.Curve.Point
import Countersign.Curve.Ecdsa
import Countersign.Curve.Signing
import Countersign.Signature.Scheme
import Countersign.ScriptHash
import Countersign.Script.Number
import Countersign.Script.Operation
import Countersign.Script.Template
import Countersign.Script.Writer
import Countersign.Machine.Limits
import Countersign.Machine.Phase
import Countersign.Machine.Fault
import Countersign.Machine.Stack
import Countersign.Machine.Bench
import Countersign.Machine.Multisig
import Countersign.Machine.Run
import Countersign.Authorization.Request
import Countersign.Authorization.Refusal
import Countersign.Authorization.Verdict
import Countersign.Authorization.Evaluator
import Countersign.Authorization.Authorizer
import Countersign.Decimal.Natural
import Countersign.Decimal.Shortest
import Countersign.Text.Invisible
import Countersign.Text.Quoted
import Countersign.Schema.Mismatch
import Countersign.Json.Value
import Countersign.Json.Numeral
import Countersign.Json.Token
import Countersign.Json.Reader
import Countersign.Json.Records
import Countersign.Toml.Scan
import Countersign.Toml.Quoted
import Countersign.Toml.Scalar
import Countersign.Toml.Table
import Countersign.Toml.Document
import Countersign.Settings.Load
import Countersign.Showcase.Cast
import Countersign.Showcase.Scenario
import Countersign.Showcase.CommandLine
import Countersign.Main
import Countersign.Proofs.Bytes.LittleEndian
import Countersign.Proofs.Bytes.Hex
import Countersign.Proofs.Bytes.HashText
import Countersign.Proofs.Bytes.HashOrder
import Countersign.Proofs.Decimal.Digits
import Countersign.Proofs.Json.Numeral
import Countersign.Proofs.Json.Quoted
import Countersign.Proofs.Json.Words
import Countersign.Proofs.Json.Cutting
import Countersign.Proofs.Json.Reading
import Countersign.Proofs.Json.RoundTrip
import Countersign.Proofs.Text.Quoted
import Countersign.Proofs.Toml.Scan
import Countersign.Proofs.Toml.Table
import Countersign.Proofs.Toml.Numeral
import Countersign.Proofs.Toml.Line
import Countersign.Proofs.Toml.Lasting
import Countersign.Proofs.Toml.Document
import Countersign.Proofs.Settings.Load
import Countersign.Proofs.Machine.Act
import Countersign.Proofs.Machine.Move
import Countersign.Proofs.Machine.Plan
import Countersign.Proofs.Machine.Spending
import Countersign.Proofs.Machine.Relaxing
import Countersign.Proofs.Machine.Stepping
import Countersign.Proofs.Machine.Life
import Countersign.Proofs.Machine.OneRun
import Countersign.Proofs.Machine.Capacity
import Countersign.Proofs.Machine.Budget
import Countersign.Proofs.Script.Number
import Countersign.Proofs.Script.FixedWidth
import Countersign.Proofs.Script.Canonical
import Countersign.Proofs.Script.Push
import Countersign.Proofs.Script.Listing
import Countersign.Proofs.Script.Template
import Countersign.Proofs.Script.Writer
import Countersign.Proofs.Machine.Pushing
import Countersign.Proofs.Machine.Matching
import Countersign.Proofs.Machine.Questions
import Countersign.Proofs.Machine.ReadingBack
import Countersign.Proofs.Machine.Shortest
import Countersign.Proofs.Machine.Counts
import Countersign.Proofs.Machine.Repertoire
import Countersign.Proofs.Machine.Listing
import Countersign.Proofs.Machine.PushOnly
import Countersign.Proofs.Machine.Concatenation
import Countersign.Proofs.Machine.Checking
import Countersign.Proofs.Machine.Answering
import Countersign.Proofs.Machine.Oversize
import Countersign.Proofs.Machine.Faulting
import Countersign.Proofs.Machine.Binding
import Countersign.Proofs.Machine.SideBySide
import Countersign.Proofs.Authorization.Protocol
import Countersign.Proofs.Authorization.Witness
import Countersign.Proofs.Authorization.Workload
import Countersign.Proofs.Authorization.Capacity
import Countersign.Proofs.Authorization.Reports
import Countersign.Proofs.Authorization.Relaxing
import Countersign.Proofs.Authorization.Independence
import Countersign.Proofs.Authorization.SingleKey
import Countersign.Proofs.Authorization.MultiKey
import Countersign.Proofs.Authorization.Standard
import Countersign.Proofs.Authorization.Correspondence
import Countersign.Proofs.Authorization.Reencoding
import Countersign.Proofs.Authorization.Binding
import Countersign.Proofs.Authorization.Discretion
import Countersign.Proofs.Showcase.Thresholds
