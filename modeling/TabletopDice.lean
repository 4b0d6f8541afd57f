import TabletopDice.Arithmetic
import TabletopDice.Command
import TabletopDice.Command.Parser
import TabletopDice.Command.Parser.Expression
import TabletopDice.Command.Parser.Progress
import TabletopDice.Command.Spelling
import TabletopDice.CommandLine.Grammar
import TabletopDice.CommandLine.Invocation
import TabletopDice.CommandLine.Session
import TabletopDice.Die
import TabletopDice.Engine
import TabletopDice.Engine.Json
import TabletopDice.Evaluation
import TabletopDice.Event
import TabletopDice.Fault
import TabletopDice.Http.Escape
import TabletopDice.Http.Message
import TabletopDice.Http.Route
import TabletopDice.Http.Service
import TabletopDice.Http.Target
import TabletopDice.Json
import TabletopDice.Json.Integral
import TabletopDice.Json.Printer
import TabletopDice.Json.Reader
import TabletopDice.Json.Token
import TabletopDice.Judgement
import TabletopDice.Log
import TabletopDice.Log.Layout
import TabletopDice.Log.Line
import TabletopDice.Log.Place
import TabletopDice.Main
import TabletopDice.Numbers
import TabletopDice.Numbers.Double
import TabletopDice.Numbers.Rounding
import TabletopDice.Numbers.Scientific
import TabletopDice.Outcome
import TabletopDice.Outcome.Describe
import TabletopDice.Outcome.Json
import TabletopDice.Proofs.Agreement
import TabletopDice.Proofs.Budget
import TabletopDice.Proofs.Changes
import TabletopDice.Proofs.Characters
import TabletopDice.Proofs.Conformance
import TabletopDice.Proofs.Consistency
import TabletopDice.Proofs.Data
import TabletopDice.Proofs.Decoding
import TabletopDice.Proofs.Description
import TabletopDice.Proofs.Division
import TabletopDice.Proofs.Entries
import TabletopDice.Proofs.Explosions
import TabletopDice.Proofs.Failure
import TabletopDice.Proofs.Faults
import TabletopDice.Proofs.Formation
import TabletopDice.Proofs.Framing
import TabletopDice.Proofs.Grammar
import TabletopDice.Proofs.Grammar.Completeness
import TabletopDice.Proofs.Grammar.Follow
import TabletopDice.Proofs.Grammar.Soundness
import TabletopDice.Proofs.Grammar.Unambiguity
import TabletopDice.Proofs.Growth
import TabletopDice.Proofs.Joining
import TabletopDice.Proofs.Leaves
import TabletopDice.Proofs.Lexing
import TabletopDice.Proofs.Locality
import TabletopDice.Proofs.Lookahead
import TabletopDice.Proofs.Magnitude
import TabletopDice.Proofs.Marks
import TabletopDice.Proofs.Modifiers
import TabletopDice.Proofs.Normalization
import TabletopDice.Proofs.Numerals
import TabletopDice.Proofs.Parts
import TabletopDice.Proofs.Paths
import TabletopDice.Proofs.Places
import TabletopDice.Proofs.Play
import TabletopDice.Proofs.Recasing
import TabletopDice.Proofs.Recomputation
import TabletopDice.Proofs.Repetition
import TabletopDice.Proofs.Respelling
import TabletopDice.Proofs.Selection
import TabletopDice.Proofs.SingleRoll
import TabletopDice.Proofs.SingleRoll.Acceptance
import TabletopDice.Proofs.SingleRoll.Cutting
import TabletopDice.Proofs.SingleRoll.Reading
import TabletopDice.Proofs.SingleRoll.Settling
import TabletopDice.Proofs.SingleRoll.Splitting
import TabletopDice.Proofs.Spacing
import TabletopDice.Proofs.Sums
import TabletopDice.Proofs.Tiling
import TabletopDice.Proofs.Unrolling
import TabletopDice.Proofs.Usage
import TabletopDice.Proofs.Verdicts
import TabletopDice.Proofs.Visibility
import TabletopDice.Proofs.Writing
import TabletopDice.Random
import TabletopDice.Random.Continuing
import TabletopDice.Random.Scripted
import TabletopDice.Report
import TabletopDice.Roller
import TabletopDice.Schema.Result
import TabletopDice.Schema.RollRequest
import TabletopDice.Settings
import TabletopDice.Settings.Assignment
import TabletopDice.Settings.Environment
import TabletopDice.Settings.Loading
import TabletopDice.Settings.Reference
import TabletopDice.SuffixOrder
import TabletopDice.SyntaxError
import TabletopDice.Table
import TabletopDice.Template
import TabletopDice.Template.Failure
import TabletopDice.Template.Filling
import TabletopDice.Template.Value
import TabletopDice.Text.Blank
import TabletopDice.Text.ByteOrderMark
import TabletopDice.Text.Hexadecimal
import TabletopDice.Text.Letter
import TabletopDice.Text.Numeral
import TabletopDice.Text.Printable
import TabletopDice.Text.Quoted
import TabletopDice.Text.Ranges
import TabletopDice.Text.UpperCase
import TabletopDice.Text.Word
import TabletopDice.Text.Wording
import TabletopDice.Token
import TabletopDice.Token.Lexer
