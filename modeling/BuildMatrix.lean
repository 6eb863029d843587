import BuildMatrix.Blueprint
import BuildMatrix.CommandLine.Arguments
import BuildMatrix.CommandLine.Generation
import BuildMatrix.CommandLine.Listing
import BuildMatrix.CommandLine.Output
import BuildMatrix.CommandLine.Run
import BuildMatrix.Disk.Basic
import BuildMatrix.Disk.Counting
import BuildMatrix.Disk.Pathname
import BuildMatrix.Disk.Tree
import BuildMatrix.Disk.Writing
import BuildMatrix.Flags
import BuildMatrix.Library
import BuildMatrix.LineDiff
import BuildMatrix.Text.Lines
import BuildMatrix.Main
import BuildMatrix.Makefile
import BuildMatrix.Matrix
import BuildMatrix.Ninja.Command
import BuildMatrix.Ninja.Statement
import BuildMatrix.Path
import BuildMatrix.Pattern
import BuildMatrix.Project.Basic
import BuildMatrix.Project.Entry
import BuildMatrix.Project.Item
import BuildMatrix.Project.Line
import BuildMatrix.Project.Printer
import BuildMatrix.Project.Problem
import BuildMatrix.Project.Reader
import BuildMatrix.Project.Targets
import BuildMatrix.Resource.Reference
import BuildMatrix.Resource.Scan
import BuildMatrix.Schema
import BuildMatrix.Script
import BuildMatrix.Text.Basic
import BuildMatrix.Text.Quoted
import BuildMatrix.Text.LetterCase
import BuildMatrix.Text.Utf8
import BuildMatrix.Timestamp
import BuildMatrix.Update
import BuildMatrix.Version
import BuildMatrix.Proofs.Text.Lines
import BuildMatrix.Proofs.Text.Trimming
import BuildMatrix.Proofs.Text.Rows
import BuildMatrix.Proofs.Project.OptionValue
import BuildMatrix.Proofs.Project.Items
import BuildMatrix.Proofs.Project.OptionLine
import BuildMatrix.Proofs.Project.FileLists
import BuildMatrix.Proofs.Project.Reading
import BuildMatrix.Proofs.Project.Printing
import BuildMatrix.Proofs.Project.RoundTrip
import BuildMatrix.Proofs.Disk.CaseDistinct
import BuildMatrix.Proofs.Disk.Following
import BuildMatrix.Proofs.Disk.Listing
import BuildMatrix.Proofs.Resource.Reachability
import BuildMatrix.Proofs.Build.Isolation
import BuildMatrix.Proofs.Build.Closure
import BuildMatrix.Proofs.Disk.Changes
import BuildMatrix.Proofs.Text.Utf8
import BuildMatrix.Proofs.Script.NormalForm
import BuildMatrix.Proofs.Update.Effects
import BuildMatrix.Proofs.Update.Faithful
import BuildMatrix.Proofs.Disk.Anchoring
import BuildMatrix.Proofs.Path.Joining
import BuildMatrix.Proofs.CommandLine.Generating
import BuildMatrix.Proofs.CommandLine.Convergence
import BuildMatrix.Proofs.CommandLine.Prediction
import BuildMatrix.Proofs.Path.Rebasing
import BuildMatrix.Proofs.Disk.Synonyms
import BuildMatrix.Proofs.Project.Including
import BuildMatrix.Proofs.Path.Canonical
import BuildMatrix.Proofs.Disk.Naming
import BuildMatrix.Proofs.Ninja.Declarations
import BuildMatrix.Proofs.Project.Coherence
import BuildMatrix.Proofs.Project.Deriving
import BuildMatrix.Proofs.Path.FileName
import BuildMatrix.Proofs.Project.DebugOnly
import BuildMatrix.Proofs.Project.Sections
import BuildMatrix.Proofs.Project.Separators
import BuildMatrix.Proofs.Project.Pairs
import BuildMatrix.Proofs.Project.Keeping
import BuildMatrix.Proofs.Disk.Directories
import BuildMatrix.Proofs.Library.Walk
import BuildMatrix.Proofs.Resource.Accounting
import BuildMatrix.Proofs.Library.Order
import BuildMatrix.Proofs.Disk.Viewpoint
import BuildMatrix.Proofs.Library.Location
import BuildMatrix.Proofs.Project.IncludeStack
import BuildMatrix.Proofs.Build.Precedence
import BuildMatrix.Proofs.Project.Survival
import BuildMatrix.Proofs.Project.Interleaving
import BuildMatrix.Proofs.Project.Listed
import BuildMatrix.Proofs.Project.Warnings
import BuildMatrix.Proofs.Project.VersionGate
import BuildMatrix.Proofs.Project.Reviving
import BuildMatrix.Proofs.Project.DerivedName
import BuildMatrix.Proofs.Project.BadLines
import BuildMatrix.Proofs.Project.Expansion
import BuildMatrix.Proofs.Script.Assembly
import BuildMatrix.Proofs.Path.Denotation
import BuildMatrix.Proofs.Path.Absolute
import BuildMatrix.Proofs.CommandLine.ScriptPaths
import BuildMatrix.Proofs.Script.Growth
import BuildMatrix.Proofs.Ninja.Reading
import BuildMatrix.Proofs.Ninja.Bindings
import BuildMatrix.Proofs.Path.Written
import BuildMatrix.Proofs.Makefile.Reading
import BuildMatrix.Proofs.Build.Location
import BuildMatrix.Proofs.Build.ResourcePaths
import BuildMatrix.Proofs.Version.Grammar
import BuildMatrix.Proofs.Project.VersionHeader
import BuildMatrix.Proofs.LineDiff.Nearest
import BuildMatrix.Proofs.Path.Parts
