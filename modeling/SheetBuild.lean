import SheetBuild.Build.Artifact
import SheetBuild.Build.Batch
import SheetBuild.Build.Unit
import SheetBuild.Cache.Document
import SheetBuild.Cache.Key
import SheetBuild.Cache.Memory
import SheetBuild.Cache.Store
import SheetBuild.Command.Arguments
import SheetBuild.Command.Run
import SheetBuild.Compile.Compiler
import SheetBuild.Compile.EmbeddedMap
import SheetBuild.Compile.Listing
import SheetBuild.Compile.Session
import SheetBuild.Diagnostic
import SheetBuild.Digest.Sha256
import SheetBuild.Disk.Naming
import SheetBuild.Disk.Place
import SheetBuild.Disk.Tree
import SheetBuild.Entry
import SheetBuild.FileSet
import SheetBuild.Import.Cursor
import SheetBuild.Import.Graph
import SheetBuild.Import.Problem
import SheetBuild.Import.Resolve
import SheetBuild.Import.Scan
import SheetBuild.Json.Printer
import SheetBuild.Json.Reader
import SheetBuild.Json.Value
import SheetBuild.Main
import SheetBuild.Number.Binary64
import SheetBuild.Number.Integer
import SheetBuild.Number.Text
import SheetBuild.Options
import SheetBuild.Path.Lexical
import SheetBuild.Path.Logical
import SheetBuild.Project.Config
import SheetBuild.Project.Glob
import SheetBuild.Project.Sources
import SheetBuild.Proofs.Build.Blame
import SheetBuild.Proofs.Build.CallingOff
import SheetBuild.Proofs.Build.Digested
import SheetBuild.Proofs.Build.Emission
import SheetBuild.Proofs.Build.FileOrder
import SheetBuild.Proofs.Build.History
import SheetBuild.Proofs.Build.InTurn
import SheetBuild.Proofs.Build.Isolation
import SheetBuild.Proofs.Build.Loading
import SheetBuild.Proofs.Build.MapsAside
import SheetBuild.Proofs.Build.OncePerKey
import SheetBuild.Proofs.Build.Outcomes
import SheetBuild.Proofs.Build.Reading
import SheetBuild.Proofs.Build.Rebuild
import SheetBuild.Proofs.Build.Serving
import SheetBuild.Proofs.Build.Sharing
import SheetBuild.Proofs.Build.Stages
import SheetBuild.Proofs.Build.Watching
import SheetBuild.Proofs.Cache.Balance
import SheetBuild.Proofs.Cache.ContentDigest
import SheetBuild.Proofs.Cache.Damage
import SheetBuild.Proofs.Cache.Document
import SheetBuild.Proofs.Cache.Faithful
import SheetBuild.Proofs.Cache.KeyMaterial
import SheetBuild.Proofs.Cache.Ledger
import SheetBuild.Proofs.Cache.MostRecent
import SheetBuild.Proofs.Cache.PlainMap
import SheetBuild.Proofs.Cache.Provenance
import SheetBuild.Proofs.Cache.Recency
import SheetBuild.Proofs.Cache.Replies
import SheetBuild.Proofs.Cache.Request
import SheetBuild.Proofs.Cache.Series
import SheetBuild.Proofs.Cache.Shelves
import SheetBuild.Proofs.Cache.Work
import SheetBuild.Proofs.Command.Configured
import SheetBuild.Proofs.Command.Sparing
import SheetBuild.Proofs.Compile.Embedding
import SheetBuild.Proofs.Compile.Interchange
import SheetBuild.Proofs.Compile.Places
import SheetBuild.Proofs.Compile.Reading
import SheetBuild.Proofs.Compile.Refusal
import SheetBuild.Proofs.Compile.Requests
import SheetBuild.Proofs.Disk.Growth
import SheetBuild.Proofs.Disk.Layout
import SheetBuild.Proofs.Disk.Listing
import SheetBuild.Proofs.Disk.Renewal
import SheetBuild.Proofs.Disk.Replacing
import SheetBuild.Proofs.Import.Below
import SheetBuild.Proofs.Import.Candidates
import SheetBuild.Proofs.Import.Closure
import SheetBuild.Proofs.Import.Comments
import SheetBuild.Proofs.Import.Dependents
import SheetBuild.Proofs.Import.DepthFirst
import SheetBuild.Proofs.Import.Division
import SheetBuild.Proofs.Import.Files
import SheetBuild.Proofs.Import.FirstFault
import SheetBuild.Proofs.Import.Joining
import SheetBuild.Proofs.Import.Lexeme
import SheetBuild.Proofs.Import.Merge
import SheetBuild.Proofs.Import.Positions
import SheetBuild.Proofs.Import.Preference
import SheetBuild.Proofs.Import.Queries
import SheetBuild.Proofs.Import.Reachability
import SheetBuild.Proofs.Import.Readers
import SheetBuild.Proofs.Import.Resolution
import SheetBuild.Proofs.Import.Scanning
import SheetBuild.Proofs.Import.Walk
import SheetBuild.Proofs.Import.Writing
import SheetBuild.Proofs.Json.Atoms
import SheetBuild.Proofs.Json.Legible
import SheetBuild.Proofs.Json.Recovery
import SheetBuild.Proofs.Path.Canonical
import SheetBuild.Proofs.Path.Containment
import SheetBuild.Proofs.Path.Normal
import SheetBuild.Proofs.Path.Rebuilding
import SheetBuild.Proofs.Project.Collecting
import SheetBuild.Proofs.Project.Configuration
import SheetBuild.Proofs.Record.Accepted
import SheetBuild.Proofs.Text.Base64
import SheetBuild.Proofs.Text.Utf8
import SheetBuild.Proofs.Yaml.Faults
import SheetBuild.Proofs.Yaml.Plain
import SheetBuild.Record
import SheetBuild.Source
import SheetBuild.Text.Alphanumeric
import SheetBuild.Text.Base64
import SheetBuild.Text.Blank
import SheetBuild.Text.Cased
import SheetBuild.Text.Digit
import SheetBuild.Text.Loose
import SheetBuild.Text.Lowercase
import SheetBuild.Text.Newline
import SheetBuild.Text.Printable
import SheetBuild.Text.Quoted
import SheetBuild.Text.Range
import SheetBuild.Text.Utf8
import SheetBuild.Yaml.Cursor
import SheetBuild.Yaml.Fault
import SheetBuild.Yaml.Node
import SheetBuild.Yaml.Numeral
import SheetBuild.Yaml.Scalar
import SheetBuild.Yaml.Tag
import SheetBuild.Yaml.Token
import SheetBuild.Yaml.Value
