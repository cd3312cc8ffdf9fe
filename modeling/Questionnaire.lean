import Questionnaire.Analysis.Entropy
import Questionnaire.Analysis.Length
import Questionnaire.Analysis.LogTwo
import Questionnaire.Analysis.Report
import Questionnaire.Bias.Basic
import Questionnaire.Bias.Breakoff
import Questionnaire.Bias.Chance
import Questionnaire.Bias.Order
import Questionnaire.Bias.Wording
import Questionnaire.Calendar
import Questionnaire.Classify.Basic
import Questionnaire.Classify.Batch
import Questionnaire.Classify.Clusters
import Questionnaire.Classify.RareChoices
import Questionnaire.Classify.Score
import Questionnaire.Classify.Threshold
import Questionnaire.Cluster.Basic
import Questionnaire.Column
import Questionnaire.Config.Basic
import Questionnaire.Config.Settings
import Questionnaire.Decimal.Digits
import Questionnaire.Decimal.Dyadic
import Questionnaire.Decimal.Style
import Questionnaire.Document
import Questionnaire.Document.Access
import Questionnaire.Document.Difference
import Questionnaire.Document.Display
import Questionnaire.Document.Grid
import Questionnaire.Document.Json.Reading
import Questionnaire.Document.Json.Token
import Questionnaire.Document.Json.Writing
import Questionnaire.Document.Order
import Questionnaire.Document.Slots
import Questionnaire.Document.Yaml.Binary
import Questionnaire.Document.Yaml.Cursor
import Questionnaire.Document.Yaml.Filling
import Questionnaire.Document.Yaml.Graph
import Questionnaire.Document.Yaml.Kind
import Questionnaire.Document.Yaml.Layout
import Questionnaire.Document.Yaml.Lines
import Questionnaire.Document.Yaml.Plain
import Questionnaire.Document.Yaml.Quoted
import Questionnaire.Document.Yaml.Reading
import Questionnaire.Document.Yaml.Scalar
import Questionnaire.Document.Yaml.Sheet
import Questionnaire.Document.Yaml.Timestamp
import Questionnaire.Document.Yaml.Token
import Questionnaire.Document.Yaml.Writing
import Questionnaire.Fault
import Questionnaire.Frequency
import Questionnaire.Note
import Questionnaire.Number
import Questionnaire.Path.Basic
import Questionnaire.Path.Chain
import Questionnaire.Path.Tour
import Questionnaire.Random
import Questionnaire.Respondent
import Questionnaire.Response.Basic
import Questionnaire.Response.Record
import Questionnaire.Session
import Questionnaire.Sorting
import Questionnaire.Stats.ChiSquared
import Questionnaire.Stats.CramersV
import Questionnaire.Stats.MannWhitney
import Questionnaire.Stats.Outcome
import Questionnaire.Stats.Rank
import Questionnaire.Stats.RankTable
import Questionnaire.Stats.Rising
import Questionnaire.Stats.Spearman
import Questionnaire.Stats.Sum
import Questionnaire.Stats.Tail
import Questionnaire.Survey.Basic
import Questionnaire.Survey.Branching
import Questionnaire.Survey.Directory
import Questionnaire.Survey.Index
import Questionnaire.Survey.Order
import Questionnaire.Survey.Reading
import Questionnaire.Survey.Samples
import Questionnaire.Survey.Validity
import Questionnaire.Survey.Writing
import Questionnaire.Tally
import Questionnaire.Text.Blank
import Questionnaire.Text.Digit
import Questionnaire.Text.Numeral
import Questionnaire.Text.Printable
import Questionnaire.Text.Quoted
import Questionnaire.Traversal.Arrangement
import Questionnaire.Traversal.Basic
import Questionnaire.Traversal.Expansion
import Questionnaire.Weights
import Questionnaire.Whole
import Questionnaire.Proofs.Success
import Questionnaire.Proofs.Survey.Numbering
import Questionnaire.Proofs.Survey.NaturalOrder
import Questionnaire.Proofs.Traversal.Arrangement
import Questionnaire.Proofs.Survey.Validity
import Questionnaire.Proofs.Traversal.Expansion
import Questionnaire.Proofs.Traversal.Step
import Questionnaire.Proofs.Traversal.Run
import Questionnaire.Proofs.Traversal.Routing
import Questionnaire.Proofs.Traversal.Progress
import Questionnaire.Proofs.Survey.Leaves
import Questionnaire.Proofs.Survey.Branching
import Questionnaire.Proofs.Path.Chain
import Questionnaire.Proofs.Path.Visited
import Questionnaire.Proofs.Path.Count
import Questionnaire.Proofs.Survey.Forms
import Questionnaire.Proofs.Survey.References
import Questionnaire.Proofs.Survey.Copy
import Questionnaire.Proofs.Survey.Rereading
import Questionnaire.Proofs.Traversal.Late
import Questionnaire.Proofs.Path.Exits
import Questionnaire.Proofs.Traversal.Respondent
import Questionnaire.Proofs.Path.Filing
import Questionnaire.Proofs.Response.Rereading
import Questionnaire.Proofs.Running
import Questionnaire.Proofs.Drawing
import Questionnaire.Proofs.Session.Memory
import Questionnaire.Proofs.Session.Use
import Questionnaire.Proofs.Classify.Decisions
import Questionnaire.Proofs.Classify.Unmarked
import Questionnaire.Proofs.Cluster.Labels
import Questionnaire.Proofs.Classify.Marking
import Questionnaire.Proofs.Classify.Repeating
import Questionnaire.Proofs.Classify.Independence
import Questionnaire.Proofs.Response.Counted
import Questionnaire.Proofs.Decimal.Counts
import Questionnaire.Proofs.Classify.Coherence
import Questionnaire.Proofs.Traversal.Answering
import Questionnaire.Proofs.Path.WellFormed
import Questionnaire.Proofs.Analysis.Report
import Questionnaire.Proofs.Survey.Opened
import Questionnaire.Proofs.Path.Ways
import Questionnaire.Proofs.Analysis.Unreachable
import Questionnaire.Proofs.Traversal.Opening
import Questionnaire.Proofs.Traversal.Log
import Questionnaire.Proofs.Sorting
import Questionnaire.Proofs.Document.Order
import Questionnaire.Proofs.Path.Grouping
import Questionnaire.Proofs.Classify.Sharing
import Questionnaire.Proofs.Tally
import Questionnaire.Proofs.Classify.Counts
import Questionnaire.Proofs.Classify.Gaps
import Questionnaire.Proofs.Document.Key
import Questionnaire.Proofs.Document.Difference
import Questionnaire.Proofs.Frequency.Selections
import Questionnaire.Proofs.Frequency.Order
import Questionnaire.Proofs.Cluster.WellFormed
import Questionnaire.Proofs.Cluster.Descent
import Questionnaire.Proofs.Cluster.Taken
import Questionnaire.Proofs.Classify.Prevailing
import Questionnaire.Proofs.Classify.Clusters
import Questionnaire.Proofs.Sums
import Questionnaire.Proofs.Bias.Order
import Questionnaire.Proofs.Analysis.Entropy
import Questionnaire.Proofs.Survey.Directory
import Questionnaire.Proofs.Survey.Ids
import Questionnaire.Proofs.Classify.Wordings
import Questionnaire.Proofs.Analysis.Draws
