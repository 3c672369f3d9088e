import MixAsm.Operand.Literal
import MixAsm.Token.Lexer
import MixAsm.Instruction
import MixAsm.Text.Lines
import MixAsm.Text.Blank
import MixAsm.Program.Layout
import MixAsm.Program.Parallel
import MixAsm.Program.Summary
import MixAsm.Json.Writer
import MixAsm.Json.Reader
import MixAsm.Config.Json
import MixAsm.Instruction.Json
import MixAsm.Report
import MixAsm.Main
import MixAsm.Proofs.Outcome
import MixAsm.Proofs.Agreement
import MixAsm.Proofs.Lists
import MixAsm.Proofs.Text.Runs
import MixAsm.Proofs.Text.Numeral
import MixAsm.Proofs.Text.Literal
import MixAsm.Proofs.Text.Lines
import MixAsm.Proofs.Text.Squeeze
import MixAsm.Proofs.Token.CharClass
import MixAsm.Proofs.Token.Tiling
import MixAsm.Proofs.Token.Trim
import MixAsm.Proofs.Token.Alphabet
import MixAsm.Proofs.Token.Spacing
import MixAsm.Proofs.Operand.Literal
import MixAsm.Proofs.Instruction.Steps
import MixAsm.Proofs.Instruction.Grammar
import MixAsm.Proofs.Instruction.Language
import MixAsm.Proofs.Instruction.Pieces
import MixAsm.Proofs.Instruction.RoundTrip
import MixAsm.Proofs.Instruction.CaseFolding
import MixAsm.Proofs.Instruction.Spacing
import MixAsm.Proofs.Program.Layout
import MixAsm.Proofs.Program.Formatting
import MixAsm.Proofs.Program.Concatenation
import MixAsm.Proofs.Program.Parallel
import MixAsm.Proofs.Json.Number
import MixAsm.Proofs.Json.String
import MixAsm.Proofs.Json.RoundTrip
import MixAsm.Proofs.Json.Plain
import MixAsm.Proofs.Json.Decode
import MixAsm.Proofs.Mnemonic.Json
import MixAsm.Proofs.Operand.Json
import MixAsm.Proofs.Instruction.Json
import MixAsm.Proofs.Instruction.Documents
import MixAsm.Proofs.Program.Validity
import MixAsm.Proofs.Command.Directory
import MixAsm.Proofs.Command.Arguments
import MixAsm.Proofs.Command.Frame
import MixAsm.Proofs.Command.Agreement
import MixAsm.Proofs.Token.Covering
import MixAsm.Proofs.Instruction.Progress
import MixAsm.Proofs.Instruction.Leftover
import MixAsm.Proofs.Instruction.Viable
import MixAsm.Proofs.Program.Dump
import MixAsm.Proofs.Instruction.IllegalCharacter
import MixAsm.Proofs.Instruction.Anchored
import MixAsm.Proofs.Mnemonic.Grammar
import MixAsm.Proofs.Mnemonic.Table
import MixAsm.Proofs.Operand.Exact
import MixAsm.Proofs.Text.LineEnds
import MixAsm.Proofs.Program.Canonical
import MixAsm.Proofs.Program.Numbering
import MixAsm.Proofs.Operand.Sources
import MixAsm.Proofs.Program.BlankLines
import MixAsm.Proofs.Program.LineEnds
import MixAsm.Proofs.Instruction.Subject
import MixAsm.Proofs.Text.SingleLine
import MixAsm.Proofs.Instruction.Messages
import MixAsm.Proofs.Report.Caret
import MixAsm.Proofs.Program.Summary
import MixAsm.Proofs.Program.Splitting
import MixAsm.Proofs.Instruction.Operands
import MixAsm.Proofs.Json.Legible
import MixAsm.Proofs.Json.ByName
import MixAsm.Proofs.Json.SingleLine
import MixAsm.Proofs.Command.Shown
import MixAsm.Proofs.Command.ParseLines
import MixAsm.Proofs.Program.Counts
