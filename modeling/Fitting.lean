import Fitting.Aggregate
import Fitting.Command
import Fitting.DataDirectory
import Fitting.Decimal.Basic
import Fitting.Decimal.Rounding
import Fitting.Decimal.Shortest
import Fitting.Document.Basic
import Fitting.Document.Loadout
import Fitting.Document.Reference
import Fitting.Double
import Fitting.Files
import Fitting.Fit.Assembly
import Fitting.Fit.Attachment
import Fitting.Fit.Basic
import Fitting.Fit.Correction
import Fitting.Fit.Item
import Fitting.Fit.Resolution
import Fitting.Hash.Bytes
import Fitting.Hash.Sha256
import Fitting.IntegerType
import Fitting.Json.Document
import Fitting.Json.Magnitude
import Fitting.Json.Number
import Fitting.Json.Reader
import Fitting.Json.Value
import Fitting.Json.Writer
import Fitting.Key
import Fitting.Loadout
import Fitting.Main
import Fitting.Modifier.Basic
import Fitting.Modifier.Description
import Fitting.Modifier.Index
import Fitting.Named
import Fitting.Numeral
import Fitting.Proofs.Aggregate
import Fitting.Proofs.Decimal.Rounds
import Fitting.Proofs.Decimal.Shortest
import Fitting.Proofs.DoubleOrder
import Fitting.Proofs.DoubleParts
import Fitting.Proofs.Exact
import Fitting.Proofs.Fit.Arranged
import Fitting.Proofs.Fit.Attached
import Fitting.Proofs.Fit.Blocks
import Fitting.Proofs.Fit.Collected
import Fitting.Proofs.Fit.Core
import Fitting.Proofs.Fit.Corrected
import Fitting.Proofs.Fit.Corrections
import Fitting.Proofs.Fit.Deliveries
import Fitting.Proofs.Fit.EffectOrder
import Fitting.Proofs.Fit.Flattened
import Fitting.Proofs.Fit.ImplantOrder
import Fitting.Proofs.Fit.Inert
import Fitting.Proofs.Fit.Inserted
import Fitting.Proofs.Fit.Origin
import Fitting.Proofs.Fit.Penalty
import Fitting.Proofs.Fit.Places
import Fitting.Proofs.Fit.Readings
import Fitting.Proofs.Fit.Relevant
import Fitting.Proofs.Fit.Rewired
import Fitting.Proofs.Fit.Sheets
import Fitting.Proofs.Fit.Shifted
import Fitting.Proofs.Fit.Silence
import Fitting.Proofs.Fit.Skills
import Fitting.Proofs.Fit.Stated
import Fitting.Proofs.Fit.Targets
import Fitting.Proofs.Json.Grammar
import Fitting.Proofs.Json.Literal
import Fitting.Proofs.Json.Printed
import Fitting.Proofs.Json.Reading
import Fitting.Proofs.Json.Writing
import Fitting.Proofs.Modifier.Description
import Fitting.Proofs.Modifier.Entry
import Fitting.Proofs.Modifier.Faithful
import Fitting.Proofs.Modifier.Index
import Fitting.Proofs.Reference.Alike
import Fitting.Proofs.Reference.Distinct
import Fitting.Proofs.Report.Core
import Fitting.Proofs.Report.Inert
import Fitting.Proofs.Report.Mirror
import Fitting.Proofs.Report.Names
import Fitting.Proofs.Report.Printed
import Fitting.Proofs.Report.Record
import Fitting.Proofs.Report.Total
import Fitting.Proofs.Report.Untouched
import Fitting.Proofs.Resolution.Checked
import Fitting.Proofs.Resolution.Coherent
import Fitting.Proofs.Resolution.Dialogue
import Fitting.Proofs.Resolution.Duplicates
import Fitting.Proofs.Resolution.Gating
import Fitting.Proofs.Resolution.Groups
import Fitting.Proofs.Resolution.Machine
import Fitting.Proofs.Resolution.Plain
import Fitting.Proofs.Resolution.Queries
import Fitting.Proofs.Resolution.Rename
import Fitting.Proofs.Resolution.Repetition
import Fitting.Proofs.Resolution.Returns
import Fitting.Proofs.Resolution.Rewire
import Fitting.Proofs.Resolution.Value
import Fitting.Proofs.Resolution.Winners
import Fitting.Proofs.Stack.ClosedForm
import Fitting.Proofs.Stack.Diminishing
import Fitting.Proofs.Stack.Fading
import Fitting.Proofs.Stack.Order
import Fitting.Proofs.Stack.Series
import Fitting.Proofs.Stack.Strongest
import Fitting.Proofs.Tables
import Fitting.Proofs.Taken
import Fitting.Reference.Catalog
import Fitting.Reference.Rows
import Fitting.Reference.Sources
import Fitting.Report.Basic
import Fitting.Report.Digest
import Fitting.Report.Text
import Fitting.Ron.Content
import Fitting.Ron.Document
import Fitting.Ron.Lexeme
import Fitting.Ron.Reader
import Fitting.Ron.Value
import Fitting.Rules
import Fitting.Scalar
import Fitting.Severity
import Fitting.Simulation
import Fitting.Stack
import Fitting.Text.Blank
import Fitting.Text.Identifier
import Fitting.Text.Range
import Fitting.Toml.Moment
import Fitting.Toml.Reader
import Fitting.Toml.Tables
