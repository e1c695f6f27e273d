import HeaderRename.Arguments.Grammar
import HeaderRename.Arguments.Options
import HeaderRename.Arguments.Reading
import HeaderRename.Arguments.Scan
import HeaderRename.Arguments.Usage
import HeaderRename.Arguments.Word
import HeaderRename.Discovery.Discover
import HeaderRename.Discovery.Expression
import HeaderRename.Discovery.Listing
import HeaderRename.Discovery.View
import HeaderRename.Discovery.Walk
import HeaderRename.Disk.Basic
import HeaderRename.Disk.Path
import HeaderRename.Disk.Resolve
import HeaderRename.Error
import HeaderRename.Ignore.Glob
import HeaderRename.Ignore.Level
import HeaderRename.Ignore.Rule
import HeaderRename.Log.Event
import HeaderRename.Log.File
import HeaderRename.Log.Level
import HeaderRename.Log.Timestamp
import HeaderRename.Main
import HeaderRename.Number.Binary64
import HeaderRename.Number.Decimal
import HeaderRename.Number.Shortest
import HeaderRename.Pattern.Glob.Match
import HeaderRename.Pattern.Glob.Parser
import HeaderRename.Pattern.Glob.Token
import HeaderRename.Pattern.Glob.Wellformed
import HeaderRename.Pattern.Regular
import HeaderRename.Pattern.Shell
import HeaderRename.Program.Basic
import HeaderRename.Program.Perform
import HeaderRename.Program.Run
import HeaderRename.Proofs.Arguments.Globals
import HeaderRename.Proofs.Arguments.Table
import HeaderRename.Proofs.Directive.Apart
import HeaderRename.Proofs.Directive.Bytes
import HeaderRename.Proofs.Directive.Feeding
import HeaderRename.Proofs.Directive.Fixpoint
import HeaderRename.Proofs.Directive.Idempotence
import HeaderRename.Proofs.Directive.InTurn
import HeaderRename.Proofs.Directive.Order
import HeaderRename.Proofs.Directive.Reading
import HeaderRename.Proofs.Directive.Rules
import HeaderRename.Proofs.Directive.Scan
import HeaderRename.Proofs.Discovery.Backends
import HeaderRename.Proofs.Discovery.Contents
import HeaderRename.Proofs.Discovery.Filtered
import HeaderRename.Proofs.Discovery.Here
import HeaderRename.Proofs.Discovery.Ignored
import HeaderRename.Proofs.Discovery.Lines
import HeaderRename.Proofs.Discovery.Listed
import HeaderRename.Proofs.Discovery.Narrow
import HeaderRename.Proofs.Discovery.Nodes
import HeaderRename.Proofs.Discovery.Pruned
import HeaderRename.Proofs.Discovery.Readable
import HeaderRename.Proofs.Discovery.Starts
import HeaderRename.Proofs.Discovery.Trails
import HeaderRename.Proofs.Discovery.Walk
import HeaderRename.Proofs.Disk.Contents
import HeaderRename.Proofs.Disk.Join
import HeaderRename.Proofs.Program.Accepted
import HeaderRename.Proofs.Program.Alone
import HeaderRename.Proofs.Rename.Chains
import HeaderRename.Proofs.Rename.Hazards
import HeaderRename.Proofs.Rename.Joining
import HeaderRename.Proofs.Rename.NameAfter
import HeaderRename.Proofs.Run.Again
import HeaderRename.Proofs.Run.Dry
import HeaderRename.Proofs.Run.Effect
import HeaderRename.Proofs.Run.Errors
import HeaderRename.Proofs.Run.Failure
import HeaderRename.Proofs.Run.Policies
import HeaderRename.Proofs.Run.Rewrite
import HeaderRename.Proofs.Run.Success
import HeaderRename.Proofs.Run.Updated
import HeaderRename.Proofs.Run.Written
import HeaderRename.Proofs.Settings.Acceptance
import HeaderRename.Proofs.Settings.Fields
import HeaderRename.Proofs.Settings.Files
import HeaderRename.Proofs.Settings.Flags
import HeaderRename.Proofs.Settings.Layers
import HeaderRename.Proofs.Settings.Merge
import HeaderRename.Proofs.Settings.Origin
import HeaderRename.Proofs.Settings.Overrides
import HeaderRename.Proofs.Settings.Paths
import HeaderRename.Proofs.Settings.Reading
import HeaderRename.Proofs.Settings.Unknown
import HeaderRename.Proofs.Settings.Variables
import HeaderRename.Proofs.Settings.Written
import HeaderRename.Proofs.Text.Alphabet
import HeaderRename.Proofs.Text.Clean
import HeaderRename.Proofs.Text.Forms
import HeaderRename.Proofs.Text.Local
import HeaderRename.Proofs.Text.Order
import HeaderRename.Proofs.Text.Pieces
import HeaderRename.Proofs.Text.RoundTrip
import HeaderRename.Proofs.Text.Splitting
import HeaderRename.Rename.Builtin
import HeaderRename.Rename.Header
import HeaderRename.Rename.Rule
import HeaderRename.Rename.Table
import HeaderRename.Run.Rewrite
import HeaderRename.Run.Table
import HeaderRename.Settings.Config
import HeaderRename.Settings.Convert
import HeaderRename.Settings.Environment
import HeaderRename.Settings.Fault
import HeaderRename.Settings.KeyPath
import HeaderRename.Settings.Listing
import HeaderRename.Settings.Loader
import HeaderRename.Settings.Setting
import HeaderRename.Settings.Source
import HeaderRename.Text.Blank
import HeaderRename.Text.CaseFold
import HeaderRename.Text.CaseRun
import HeaderRename.Text.CodePage
import HeaderRename.Text.Column
import HeaderRename.Text.Encoding
import HeaderRename.Text.Lowercase
import HeaderRename.Text.Printable
import HeaderRename.Text.Quoted
import HeaderRename.Text.Replace
import HeaderRename.Text.Utf8
import HeaderRename.Toml.Document
import HeaderRename.Toml.Lexical
import HeaderRename.Toml.Node
import HeaderRename.Toml.Scalar
