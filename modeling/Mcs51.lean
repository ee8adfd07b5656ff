import Mcs51.Assembly
import Mcs51.Attempt
import Mcs51.Binary64
import Mcs51.Binary64.Rounded
import Mcs51.Binary64.Shortest
import Mcs51.CodeUnit
import Mcs51.Command
import Mcs51.Command.Files
import Mcs51.Command.Options
import Mcs51.Complaint
import Mcs51.Expression
import Mcs51.Expression.Arguments
import Mcs51.Expression.Arithmetic
import Mcs51.Expression.Bitwise
import Mcs51.Expression.Evaluation
import Mcs51.Expression.Functions
import Mcs51.Expression.Grammar
import Mcs51.Expression.Lexeme
import Mcs51.Expression.Names
import Mcs51.Expression.NumberText
import Mcs51.Expression.Order
import Mcs51.Expression.Rendering
import Mcs51.Expression.Scope
import Mcs51.Expression.Sequence
import Mcs51.Expression.Store
import Mcs51.Expression.StoreMethods
import Mcs51.Expression.TextMethods
import Mcs51.Expression.TextSearch
import Mcs51.Expression.Tree
import Mcs51.Expression.Value
import Mcs51.Hex.Record
import Mcs51.Hex.Writer
import Mcs51.Instruction
import Mcs51.Instruction.Family
import Mcs51.Instruction.Field
import Mcs51.Layout
import Mcs51.Main
import Mcs51.Message
import Mcs51.Message.Argument
import Mcs51.Message.Template
import Mcs51.NameTable
import Mcs51.Numeral
import Mcs51.Operand
import Mcs51.Operand.Reader
import Mcs51.Problem
import Mcs51.Program
import Mcs51.Program.Emission
import Mcs51.Proofs.AddressSums
import Mcs51.Proofs.Attempts
import Mcs51.Proofs.BlockPasses
import Mcs51.Proofs.CharacterLiterals
import Mcs51.Proofs.CodeSpace
import Mcs51.Proofs.Convergence
import Mcs51.Proofs.DecimalNumerals
import Mcs51.Proofs.DeclarableNames
import Mcs51.Proofs.DistinctPoints
import Mcs51.Proofs.EncodedText
import Mcs51.Proofs.EncodingComplete
import Mcs51.Proofs.EncodingErrors
import Mcs51.Proofs.EncodingLength
import Mcs51.Proofs.EncodingSound
import Mcs51.Proofs.EncodingWarnings
import Mcs51.Proofs.EquateWrites
import Mcs51.Proofs.EvaluatedEquates
import Mcs51.Proofs.FamilyEncoding
import Mcs51.Proofs.FixedLengths
import Mcs51.Proofs.GenericJumps
import Mcs51.Proofs.HexAddressSpace
import Mcs51.Proofs.HexGrowth
import Mcs51.Proofs.HexReader
import Mcs51.Proofs.HexRecordSize
import Mcs51.Proofs.HexRoundTrip
import Mcs51.Proofs.HexWriter
import Mcs51.Proofs.JumpReach
import Mcs51.Proofs.JumpTargets
import Mcs51.Proofs.LabelFates
import Mcs51.Proofs.LineUnits
import Mcs51.Proofs.LostInstructions
import Mcs51.Proofs.MemoryImage
import Mcs51.Proofs.NameEvaluation
import Mcs51.Proofs.NegatedBits
import Mcs51.Proofs.NormalizedLines
import Mcs51.Proofs.NumeralValues
import Mcs51.Proofs.OpcodeMap
import Mcs51.Proofs.OperandClassification
import Mcs51.Proofs.OperandDenotation
import Mcs51.Proofs.OperandReading
import Mcs51.Proofs.OutputFile
import Mcs51.Proofs.Overlaps
import Mcs51.Proofs.PassLimit
import Mcs51.Proofs.PieceRows
import Mcs51.Proofs.PlainText
import Mcs51.Proofs.PolicyChoice
import Mcs51.Proofs.ProblemListing
import Mcs51.Proofs.ProgramViews
import Mcs51.Proofs.RegisterBank
import Mcs51.Proofs.RelevantSettings
import Mcs51.Proofs.SegmentBlocks
import Mcs51.Proofs.SegmentOrder
import Mcs51.Proofs.SettledLayout
import Mcs51.Proofs.SourceData
import Mcs51.Proofs.SourceMirror
import Mcs51.Proofs.SourceUnits
import Mcs51.Proofs.StaticUnits
import Mcs51.Proofs.StringData
import Mcs51.Proofs.ValidSettings
import Mcs51.Proofs.WrittenOperands
import Mcs51.Segment
import Mcs51.Settings
import Mcs51.Settings.Load
import Mcs51.Source
import Mcs51.Source.CharacterLiteral
import Mcs51.Source.Equates
import Mcs51.SpecialRegister
import Mcs51.Text.Basic
import Mcs51.Text.Blank
import Mcs51.Text.Decimal
import Mcs51.Text.Graphic
import Mcs51.Text.Letter
import Mcs51.Text.LetterCase
import Mcs51.Text.Lines
import Mcs51.Text.MarkedInteger
import Mcs51.Text.Quoted
import Mcs51.Text.Quoting
import Mcs51.Text.StringLiteral
import Mcs51.Text.Utf8
import Mcs51.Token
import Mcs51.Token.Reader
import Mcs51.Toml.Document
import Mcs51.Toml.Moment
import Mcs51.Toml.Reader
import Mcs51.Toml.Value
