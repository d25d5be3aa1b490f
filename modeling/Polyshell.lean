import Polyshell.Backend
import Polyshell.Bson
import Polyshell.Bson.Decimal128
import Polyshell.Bson.Extended
import Polyshell.Bson.ObjectId
import Polyshell.Bson.Same
import Polyshell.Bson.Shown
import Polyshell.Bson.Text
import Polyshell.Calendar
import Polyshell.CommandLine.Arguments
import Polyshell.CommandLine.Invocation
import Polyshell.CommandLine.Reader
import Polyshell.CommandLine.Usage
import Polyshell.Config
import Polyshell.Config.Environment
import Polyshell.Config.File
import Polyshell.Decimal.Fixed
import Polyshell.Decimal.Whole
import Polyshell.Dialogue
import Polyshell.Double
import Polyshell.Double.Shortest
import Polyshell.Double.Text
import Polyshell.Error
import Polyshell.Error.Info
import Polyshell.Error.Parse
import Polyshell.Error.Report
import Polyshell.Executor
import Polyshell.Json
import Polyshell.Json.Printer
import Polyshell.Json.Reader
import Polyshell.LogLevel
import Polyshell.Main
import Polyshell.Mongo.Admin
import Polyshell.Mongo.Argument
import Polyshell.Mongo.Calls
import Polyshell.Mongo.Command
import Polyshell.Mongo.Fetch
import Polyshell.Mongo.Index
import Polyshell.Mongo.Literal
import Polyshell.Mongo.Operation
import Polyshell.Mongo.Operation.Run
import Polyshell.Mongo.Query
import Polyshell.Mongo.Request
import Polyshell.Mongo.Scan
import Polyshell.Mongo.Session
import Polyshell.Network
import Polyshell.Outcome
import Polyshell.Pool.Call
import Polyshell.Pool.Interleaving
import Polyshell.Pool.Key
import Polyshell.Pool.Operation
import Polyshell.Pool.Simulation
import Polyshell.Pool.State
import Polyshell.Prompt
import Polyshell.Proofs.Bson.Dates
import Polyshell.Proofs.Bson.ObjectId
import Polyshell.Proofs.Bson.Printed
import Polyshell.Proofs.Calendar
import Polyshell.Proofs.Config.Layers
import Polyshell.Proofs.Config.Usable
import Polyshell.Proofs.Decimal.Digits
import Polyshell.Proofs.Dialogue
import Polyshell.Proofs.Double.Exact
import Polyshell.Proofs.Double.Overflow
import Polyshell.Proofs.Double.Rounding
import Polyshell.Proofs.Double.Shortest
import Polyshell.Proofs.Error.Message
import Polyshell.Proofs.Except
import Polyshell.Proofs.Json.Consumed
import Polyshell.Proofs.Json.Depth
import Polyshell.Proofs.Json.Document
import Polyshell.Proofs.Json.Exact
import Polyshell.Proofs.Json.NumberText
import Polyshell.Proofs.Json.Numeral
import Polyshell.Proofs.Json.RealText
import Polyshell.Proofs.Json.Reread
import Polyshell.Proofs.Json.Spelling
import Polyshell.Proofs.Mongo.Accepted
import Polyshell.Proofs.Mongo.Arguments
import Polyshell.Proofs.Mongo.Bracketed
import Polyshell.Proofs.Mongo.Brackets
import Polyshell.Proofs.Mongo.Chains
import Polyshell.Proofs.Mongo.Coercion
import Polyshell.Proofs.Mongo.Composed
import Polyshell.Proofs.Mongo.Conduct
import Polyshell.Proofs.Mongo.Constructors
import Polyshell.Proofs.Mongo.Counts
import Polyshell.Proofs.Mongo.Delimiters
import Polyshell.Proofs.Mongo.FailedSwitch
import Polyshell.Proofs.Mongo.FieldLists
import Polyshell.Proofs.Mongo.Forward
import Polyshell.Proofs.Mongo.Grammar
import Polyshell.Proofs.Mongo.Naming
import Polyshell.Proofs.Mongo.Nesting
import Polyshell.Proofs.Mongo.Normal
import Polyshell.Proofs.Mongo.Numerals
import Polyshell.Proofs.Mongo.Parsed
import Polyshell.Proofs.Mongo.Printed
import Polyshell.Proofs.Mongo.QueryChain
import Polyshell.Proofs.Mongo.Quoting
import Polyshell.Proofs.Mongo.References
import Polyshell.Proofs.Mongo.Refusal
import Polyshell.Proofs.Mongo.Relaxed
import Polyshell.Proofs.Mongo.Rendering
import Polyshell.Proofs.Mongo.Resumption
import Polyshell.Proofs.Mongo.Rewriting
import Polyshell.Proofs.Mongo.Scalars
import Polyshell.Proofs.Mongo.Scanning
import Polyshell.Proofs.Mongo.Spellings
import Polyshell.Proofs.Mongo.StringArguments
import Polyshell.Proofs.Mongo.Strings
import Polyshell.Proofs.Mongo.Switching
import Polyshell.Proofs.Mongo.Untouched
import Polyshell.Proofs.Mongo.Written
import Polyshell.Proofs.Pool.Acquired
import Polyshell.Proofs.Pool.Alone
import Polyshell.Proofs.Pool.Books
import Polyshell.Proofs.Pool.Changes
import Polyshell.Proofs.Pool.Contents
import Polyshell.Proofs.Pool.Custody
import Polyshell.Proofs.Pool.Dials
import Polyshell.Proofs.Pool.History
import Polyshell.Proofs.Pool.Isolation
import Polyshell.Proofs.Pool.Journal
import Polyshell.Proofs.Pool.Ledger
import Polyshell.Proofs.Pool.Locking
import Polyshell.Proofs.Pool.Log
import Polyshell.Proofs.Pool.Possession
import Polyshell.Proofs.Pool.Rebuffs
import Polyshell.Proofs.Pool.Retries
import Polyshell.Proofs.Pool.Sections
import Polyshell.Proofs.Pool.Selections
import Polyshell.Proofs.Pool.Shutdown
import Polyshell.Proofs.Pool.SingleConnection
import Polyshell.Proofs.Pool.Slots
import Polyshell.Proofs.Pool.Steps
import Polyshell.Proofs.Pool.Sweeps
import Polyshell.Proofs.Pool.Targets
import Polyshell.Proofs.Pool.Teardown
import Polyshell.Proofs.Pool.Turns
import Polyshell.Proofs.Precedence
import Polyshell.Proofs.Redis.Attributes
import Polyshell.Proofs.Redis.Credentials
import Polyshell.Proofs.Redis.Entries
import Polyshell.Proofs.Redis.Reconnection
import Polyshell.Proofs.Redis.Words
import Polyshell.Proofs.Reporting
import Polyshell.Proofs.Resolution
import Polyshell.Proofs.Session
import Polyshell.Proofs.Sql.UseStatement
import Polyshell.Redis.Address
import Polyshell.Redis.Reply
import Polyshell.Redis.Resp
import Polyshell.Redis.Session
import Polyshell.Redis.Tokens
import Polyshell.Repl
import Polyshell.Resolver
import Polyshell.Session
import Polyshell.Sql.Cell
import Polyshell.Sql.Session
import Polyshell.Sql.Statement
import Polyshell.Sql.Table
import Polyshell.Text.Blank
import Polyshell.Text.Hidden
import Polyshell.Text.Lowercase
import Polyshell.Text.Percent
import Polyshell.Text.Quoted
import Polyshell.Text.Utf8
import Polyshell.Text.Uuid
import Polyshell.Text.Width
import Polyshell.Toml
import Polyshell.Toml.Printer
import Polyshell.Toml.Quoted
import Polyshell.Toml.Reader
import Polyshell.Toml.Scalar
import Polyshell.Toml.Tree
