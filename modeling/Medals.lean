import Medals.Cell.Basic
import Medals.Cell.Key
import Medals.Cell.Order
import Medals.Cell.Parse
import Medals.Command.Arguments
import Medals.Command.Basic
import Medals.Command.Run
import Medals.Command.Usage
import Medals.Csv.Reader
import Medals.Csv.Record
import Medals.Csv.Writer
import Medals.Dataset
import Medals.Digest.Blake3
import Medals.Engine.Basic
import Medals.Engine.Cache
import Medals.Engine.Files
import Medals.Engine.Path
import Medals.Engine.Settings
import Medals.Engine.SettingsDocument
import Medals.Fault
import Medals.Json.Decode
import Medals.Json.Lines
import Medals.Json.Raw
import Medals.Json.Reader
import Medals.Json.Tree
import Medals.Main
import Medals.Number.Double
import Medals.Number.Reading
import Medals.Number.Shortest
import Medals.Number.Writing
import Medals.Proofs.Cell.DeclaredIntegers
import Medals.Proofs.Cell.Identity
import Medals.Proofs.Cell.Order
import Medals.Proofs.Cell.ReadBack
import Medals.Proofs.Cell.Transitivity
import Medals.Proofs.Csv.Blocks
import Medals.Proofs.Csv.Boundaries
import Medals.Proofs.Csv.Declared
import Medals.Proofs.Csv.Encoding
import Medals.Proofs.Csv.Ending
import Medals.Proofs.Csv.Extent
import Medals.Proofs.Csv.Inference
import Medals.Proofs.Csv.Limit
import Medals.Proofs.Csv.LineNumbers
import Medals.Proofs.Csv.Mark
import Medals.Proofs.Csv.Policy
import Medals.Proofs.Csv.RecordWriter
import Medals.Proofs.Csv.Records
import Medals.Proofs.Csv.RefusedRows
import Medals.Proofs.Csv.RoundTrip
import Medals.Proofs.Csv.WellFormed
import Medals.Proofs.Engine.Bookkeeping
import Medals.Proofs.Engine.Cache
import Medals.Proofs.Engine.Paths
import Medals.Proofs.Json.Lines
import Medals.Proofs.Json.Numbers
import Medals.Proofs.Json.Rows
import Medals.Proofs.Json.Texts
import Medals.Proofs.Number.Comparison
import Medals.Proofs.Number.DecimalText
import Medals.Proofs.Number.Exact
import Medals.Proofs.Number.Interval
import Medals.Proofs.Number.Rounding
import Medals.Proofs.Number.Whole
import Medals.Proofs.Outcome
import Medals.Proofs.Query.CountryCodes
import Medals.Proofs.Query.Efficiency
import Medals.Proofs.Query.Events
import Medals.Proofs.Query.Groups
import Medals.Proofs.Query.Leaderboard
import Medals.Proofs.Query.MedalCounts
import Medals.Proofs.Query.Medals
import Medals.Proofs.Query.Pages
import Medals.Proofs.Query.Rankings
import Medals.Proofs.Query.Records
import Medals.Proofs.Query.Reordering
import Medals.Proofs.Query.Success
import Medals.Proofs.Query.Totality
import Medals.Proofs.Query.Written
import Medals.Proofs.Stream.Chain
import Medals.Proofs.Stream.Derivation
import Medals.Proofs.Stream.Grouping
import Medals.Proofs.Stream.InferredColumns
import Medals.Proofs.Stream.Layout
import Medals.Proofs.Stream.Names
import Medals.Proofs.Stream.Page
import Medals.Proofs.Stream.Ranking
import Medals.Proofs.Stream.Run
import Medals.Proofs.Stream.SortedPage
import Medals.Proofs.Stream.Source
import Medals.Proofs.Stream.Tracked
import Medals.Proofs.Stream.Validation
import Medals.Proofs.Table.Alignment
import Medals.Proofs.Table.Binding
import Medals.Proofs.Table.Carrying
import Medals.Proofs.Table.Columns
import Medals.Proofs.Table.Conditions
import Medals.Proofs.Table.Evaluation
import Medals.Proofs.Table.Group
import Medals.Proofs.Table.Identity
import Medals.Proofs.Table.JoinNames
import Medals.Proofs.Table.JoinPairs
import Medals.Proofs.Table.KeyOrder
import Medals.Proofs.Table.Likeness
import Medals.Proofs.Table.Lookup
import Medals.Proofs.Table.Mirror
import Medals.Proofs.Table.NestedLoop
import Medals.Proofs.Table.Partition
import Medals.Proofs.Table.Ranges
import Medals.Proofs.Table.Refusals
import Medals.Proofs.Table.SameKeys
import Medals.Proofs.Table.Soundness
import Medals.Proofs.Table.StableOrder
import Medals.Proofs.Table.Success
import Medals.Proofs.Table.SumOrder
import Medals.Proofs.Table.Summary
import Medals.Proofs.Table.TextSearch
import Medals.Proofs.Text.LoweredPieces
import Medals.Proofs.Text.Utf8
import Medals.Query.Efficiency
import Medals.Query.JoinDemo
import Medals.Query.Leaderboard
import Medals.Query.Preview
import Medals.Query.Result
import Medals.Query.Search
import Medals.Stream.Counted
import Medals.Stream.Origin
import Medals.Stream.Page
import Medals.Stream.Pipeline
import Medals.Stream.Ranking
import Medals.Table.Basic
import Medals.Table.Filter
import Medals.Table.Group
import Medals.Table.Join
import Medals.Table.Projection
import Medals.Table.Row
import Medals.Table.Schema
import Medals.Table.Sort
import Medals.Text.Blank
import Medals.Text.CaseTable
import Medals.Text.EscapeTable
import Medals.Text.Lower
import Medals.Text.Quoted
import Medals.Text.Utf8
import Medals.Yaml.Character
import Medals.Yaml.Document
import Medals.Yaml.Node
import Medals.Yaml.Place
import Medals.Yaml.Plain
import Medals.Yaml.ScalarText
import Medals.Yaml.Tag
import Medals.Yaml.Token
import Medals.Yaml.Tokens
import Medals.Yaml.Writer
