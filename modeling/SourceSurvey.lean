import SourceSurvey.CommandLine.Options
import SourceSurvey.CommandLine.Run
import SourceSurvey.Complexity
import SourceSurvey.Config
import SourceSurvey.Config.Json
import SourceSurvey.Config.Load
import SourceSurvey.Config.Yaml
import SourceSurvey.Context
import SourceSurvey.Context.Json
import SourceSurvey.Decimal.Shortest
import SourceSurvey.Dictionary
import SourceSurvey.Disk.Basic
import SourceSurvey.Disk.Lookup
import SourceSurvey.Disk.Update
import SourceSurvey.Disk.Walk
import SourceSurvey.Extraction
import SourceSurvey.Facts
import SourceSurvey.Facts.Idiom
import SourceSurvey.Filter
import SourceSurvey.Framework
import SourceSurvey.Glob.Basic
import SourceSurvey.Glob.Match
import SourceSurvey.Glob.Parser
import SourceSurvey.Glob.Room
import SourceSurvey.Glob.Set
import SourceSurvey.Json.Basic
import SourceSurvey.Json.Decode
import SourceSurvey.Json.Encode
import SourceSurvey.Json.Parser
import SourceSurvey.Json.Printer
import SourceSurvey.Language
import SourceSurvey.Main
import SourceSurvey.Manifest
import SourceSurvey.Path
import SourceSurvey.Path.Text
import SourceSurvey.Probe
import SourceSurvey.Python.Expression
import SourceSurvey.Python.Facts
import SourceSurvey.Python.Parse
import SourceSurvey.Python.Phrase
import SourceSurvey.Python.Statement
import SourceSurvey.Python.Token
import SourceSurvey.Record
import SourceSurvey.Record.Json
import SourceSurvey.Regex.Basic
import SourceSurvey.Regex.Build
import SourceSurvey.Regex.Engine
import SourceSurvey.Regex.Match
import SourceSurvey.Regex.Parser
import SourceSurvey.Regex.Room
import SourceSurvey.Regex.Standard
import SourceSurvey.Report.Artifacts
import SourceSurvey.Report.Narrative
import SourceSurvey.Report.Overview
import SourceSurvey.Script.Declaration
import SourceSurvey.Script.Expression
import SourceSurvey.Script.Facts
import SourceSurvey.Script.Parse
import SourceSurvey.Script.Phrase
import SourceSurvey.Script.Statement
import SourceSurvey.Script.Token
import SourceSurvey.Script.Types
import SourceSurvey.Summary
import SourceSurvey.Summary.Json
import SourceSurvey.Survey
import SourceSurvey.Survey.Rules
import SourceSurvey.Syntax.Fault
import SourceSurvey.Syntax.Grammar
import SourceSurvey.Syntax.Query
import SourceSurvey.Syntax.Tree
import SourceSurvey.Tag
import SourceSurvey.Tag.Builtin
import SourceSurvey.Tally
import SourceSurvey.Text.Blank
import SourceSurvey.Text.Case
import SourceSurvey.Text.Letter
import SourceSurvey.Text.Quoted
import SourceSurvey.Text.Run
import SourceSurvey.Text.Utf8
import SourceSurvey.Timestamp
import SourceSurvey.Toml.Basic
import SourceSurvey.Toml.Parser
import SourceSurvey.Toml.Printer
import SourceSurvey.Yaml.Basic
import SourceSurvey.Yaml.Parser
import SourceSurvey.Yaml.Token
import SourceSurvey.Proofs.Disk.Resolve
import SourceSurvey.Proofs.Disk.Walk
import SourceSurvey.Proofs.Disk.Way
import SourceSurvey.Proofs.Text.Order
import SourceSurvey.Proofs.Path
import SourceSurvey.Proofs.Path.Shown
import SourceSurvey.Proofs.Survey.Walk
import SourceSurvey.Proofs.Disk.Place
import SourceSurvey.Proofs.Survey.Probe
import SourceSurvey.Proofs.Disk.LinkFree
import SourceSurvey.Proofs.Disk.Update
import SourceSurvey.Proofs.Survey.Relocation
import SourceSurvey.Proofs.Regex.LetterCase
import SourceSurvey.Proofs.Except
import SourceSurvey.Proofs.Glob.Set
import SourceSurvey.Proofs.Config
import SourceSurvey.Proofs.Survey.Validation
import SourceSurvey.Proofs.Text.Letter
import SourceSurvey.Proofs.Text.Numeral
import SourceSurvey.Proofs.Text.Line
import SourceSurvey.Proofs.Json.Layout
import SourceSurvey.Proofs.Json.Parser
import SourceSurvey.Proofs.Json.Decode
import SourceSurvey.Proofs.Json.Fields
import SourceSurvey.Proofs.Timestamp
import SourceSurvey.Proofs.Dictionary
import SourceSurvey.Proofs.Summary
import SourceSurvey.Proofs.Context
import SourceSurvey.Proofs.Complexity
import SourceSurvey.Proofs.Regex.Language
import SourceSurvey.Proofs.Regex.Capture
import SourceSurvey.Proofs.Regex.Matches
import SourceSurvey.Proofs.Regex.Count
import SourceSurvey.Proofs.Complexity.Growth
import SourceSurvey.Proofs.Tag
import SourceSurvey.Proofs.Tag.History
import SourceSurvey.Proofs.Framework
import SourceSurvey.Proofs.Syntax.Derivation
import SourceSurvey.Proofs.Syntax.Grammar
import SourceSurvey.Proofs.Syntax.Role
import SourceSurvey.Proofs.Syntax.Name
import SourceSurvey.Proofs.Syntax.Site
import SourceSurvey.Proofs.Syntax.Query
import SourceSurvey.Proofs.Syntax.Leaf
import SourceSurvey.Proofs.Syntax.Rule
import SourceSurvey.Proofs.Syntax.Children
import SourceSurvey.Proofs.Script.Leaf
import SourceSurvey.Proofs.Script.Name
import SourceSurvey.Proofs.Script.Declared
import SourceSurvey.Proofs.Script.Export
import SourceSurvey.Proofs.Python.Leaf
import SourceSurvey.Proofs.Python.Name
import SourceSurvey.Proofs.Python.Defined
import SourceSurvey.Proofs.Python.Imported
import SourceSurvey.Proofs.Extraction
import SourceSurvey.Proofs.Extraction.Name
import SourceSurvey.Proofs.Extraction.Order
import SourceSurvey.Proofs.Extraction.Value
import SourceSurvey.Proofs.Report.Heading
import SourceSurvey.Proofs.Report.Thousands
import SourceSurvey.Proofs.Survey.Run
import SourceSurvey.Proofs.Survey.Rules
import SourceSurvey.Proofs.Survey.Stored
import SourceSurvey.Proofs.Survey.Outputs
import SourceSurvey.Proofs.Survey.Records
import SourceSurvey.Proofs.Survey.Narrative
import SourceSurvey.Proofs.Disk.Write
import SourceSurvey.Proofs.Report.Artifacts
import SourceSurvey.Proofs.CommandLine.Effect
import SourceSurvey.Proofs.Survey.Locality
import SourceSurvey.Proofs.Survey.Settings
import SourceSurvey.Proofs.Survey.OwnOutput
import SourceSurvey.Proofs.Text.Blank
import SourceSurvey.Proofs.Manifest
import SourceSurvey.Proofs.Manifest.Comment
import SourceSurvey.Proofs.Manifest.Section
import SourceSurvey.Proofs.Toml.Table
import SourceSurvey.Proofs.Script.Imported
import SourceSurvey.Proofs.Ranking
import SourceSurvey.Proofs.Context.Views
import SourceSurvey.Proofs.Summary.Parts
import SourceSurvey.Proofs.Framework.Extras
import SourceSurvey.Proofs.Text.Word
import SourceSurvey.Proofs.Regex.Greedy
import SourceSurvey.Proofs.Regex.Group
import SourceSurvey.Proofs.Facts.ExportList
import SourceSurvey.Proofs.Facts.Layout
import SourceSurvey.Proofs.Text.Layout
import SourceSurvey.Proofs.Text.Utf8
import SourceSurvey.Proofs.Manifest.Description
import SourceSurvey.Proofs.Manifest.Requirement
import SourceSurvey.Proofs.Syntax.Fault
import SourceSurvey.Proofs.Extraction.Fault
import SourceSurvey.Proofs.Survey.Content
