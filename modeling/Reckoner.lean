import Reckoner.Power
import Reckoner.Binary64.Basic
import Reckoner.Binary64.Lemmas
import Reckoner.Decimal.Shortest
import Reckoner.Decimal.Layout
import Reckoner.Decimal.Numeral
import Reckoner.Text.Blank
import Reckoner.Text.Printable
import Reckoner.Text.DecimalDigit
import Reckoner.Text.Quoted
import Reckoner.Number
import Reckoner.Identifier
import Reckoner.Calculator.Fault
import Reckoner.Calculator.Operand
import Reckoner.Calculator.Arithmetic
import Reckoner.Calculator.Combinatorics
import Reckoner.Calculator.Statistics
import Reckoner.Calculator.Builtin
import Reckoner.Failure
import Reckoner.Host
import Reckoner.Datum.Basic
import Reckoner.Datum.Equality
import Reckoner.Datum.Text
import Reckoner.Datum.Source
import Reckoner.Token
import Reckoner.Reader
import Reckoner.Entries
import Reckoner.Environment.Store
import Reckoner.Environment.Text
import Reckoner.Environment.Table
import Reckoner.Machine
import Reckoner.Evaluation
import Reckoner.Settings
import Reckoner.Interpreter
import Reckoner.CommandLine.Options
import Reckoner.CommandLine.Report
import Reckoner.Main
import Reckoner.Proofs.Effects
import Reckoner.Proofs.Isolation
import Reckoner.Proofs.Semantics.Rules
import Reckoner.Proofs.Semantics.Visibility
import Reckoner.Proofs.Semantics.Runs
import Reckoner.Proofs.Semantics.Steps
import Reckoner.Proofs.Semantics.Agreement
import Reckoner.Proofs.Reading.Grammar
import Reckoner.Proofs.Reading.Acceptance
import Reckoner.Proofs.Reading.Rounding
import Reckoner.Proofs.Reading.Scanner
import Reckoner.Proofs.Reading.NumberText
import Reckoner.Proofs.Reading.RoundTrip
import Reckoner.Proofs.Correspondence.Renaming
import Reckoner.Proofs.Correspondence.Simulation
import Reckoner.Proofs.Correspondence.Arity
import Reckoner.Proofs.Correspondence.Closedness
import Reckoner.Proofs.Correspondence.Histories
import Reckoner.Proofs.Correspondence.Names
import Reckoner.Proofs.Correspondence.Presence
import Reckoner.Proofs.Reading.Defects
import Reckoner.Proofs.Reading.Streams
import Reckoner.Proofs.Correspondence.Discipline
import Reckoner.Proofs.Correspondence.Sessions
import Reckoner.Proofs.Respelling.Runs
import Reckoner.Proofs.Calculator.Counting
import Reckoner.Proofs.Calculator.Soundness
import Reckoner.Proofs.CommandLine.Reports
import Reckoner.Proofs.Reading.SourceNames
import Reckoner.Proofs.Calculator.Exactness
import Reckoner.Proofs.DefinedNames
import Reckoner.Proofs.Calculator.WholeNumbers
import Reckoner.Proofs.Calculator.Selections
import Reckoner.Proofs.Correspondence.Circulation
import Reckoner.Proofs.Record
import Reckoner.Proofs.Semantics.Depth
import Reckoner.Proofs.Scopes
import Reckoner.Proofs.Calculator.Recursion
import Reckoner.Proofs.Failures
import Reckoner.Proofs.Reading.Cursors
import Reckoner.Proofs.Tables
