import A64Machine.Access
import A64Machine.Arithmetic
import A64Machine.Assembler
import A64Machine.Bits
import A64Machine.Branch
import A64Machine.Breakpoint
import A64Machine.Complaint
import A64Machine.DataProcessing
import A64Machine.Debugger
import A64Machine.Decode
import A64Machine.Disassembly
import A64Machine.Encode
import A64Machine.Execute
import A64Machine.Execution
import A64Machine.Expression
import A64Machine.FileTree
import A64Machine.Flags
import A64Machine.InstructionSet
import A64Machine.IntelHex
import A64Machine.Listing
import A64Machine.LogicalImmediate
import A64Machine.Machine
import A64Machine.Memory
import A64Machine.Modifier
import A64Machine.NamedRegister
import A64Machine.Observer
import A64Machine.OpcodeTable
import A64Machine.Operand
import A64Machine.OperandKind
import A64Machine.Operation
import A64Machine.Pattern
import A64Machine.Proofs.AccessLog
import A64Machine.Proofs.AddWithCarry
import A64Machine.Proofs.AddressForms
import A64Machine.Proofs.Addressing
import A64Machine.Proofs.Admission
import A64Machine.Proofs.AliasExpansion
import A64Machine.Proofs.AliasForms
import A64Machine.Proofs.AssembledStep
import A64Machine.Proofs.AssemblyEmission
import A64Machine.Proofs.AssemblyErrors
import A64Machine.Proofs.AssemblyImage
import A64Machine.Proofs.AssemblyLayout
import A64Machine.Proofs.BitfieldMove
import A64Machine.Proofs.BitOrder
import A64Machine.Proofs.Bits
import A64Machine.Proofs.BreakpointHits
import A64Machine.Proofs.BreakpointList
import A64Machine.Proofs.ByteMap
import A64Machine.Proofs.CarryChain
import A64Machine.Proofs.Comparison
import A64Machine.Proofs.CompletedStep
import A64Machine.Proofs.DataDirective
import A64Machine.Proofs.DebuggerRun
import A64Machine.Proofs.Decodable
import A64Machine.Proofs.DecodeCache
import A64Machine.Proofs.DraftFrame
import A64Machine.Proofs.Effects
import A64Machine.Proofs.Encode
import A64Machine.Proofs.EncodingOutcome
import A64Machine.Proofs.Ensures
import A64Machine.Proofs.ErrorPositions
import A64Machine.Proofs.Executable
import A64Machine.Proofs.ExecutedFields
import A64Machine.Proofs.Expression
import A64Machine.Proofs.FaultedStep
import A64Machine.Proofs.FieldAssignment
import A64Machine.Proofs.FieldBounds
import A64Machine.Proofs.FormEffects
import A64Machine.Proofs.FormOperands
import A64Machine.Proofs.FormWord
import A64Machine.Proofs.HexText
import A64Machine.Proofs.ImmediateForms
import A64Machine.Proofs.ImmediateOperand
import A64Machine.Proofs.InitialState
import A64Machine.Proofs.InstructionEffects
import A64Machine.Proofs.InstructionFrame
import A64Machine.Proofs.InstructionSet
import A64Machine.Proofs.LineComments
import A64Machine.Proofs.LineReplacement
import A64Machine.Proofs.ListingSource
import A64Machine.Proofs.LogicalImmediate
import A64Machine.Proofs.LongestLexeme
import A64Machine.Proofs.MaskedWord
import A64Machine.Proofs.Memory
import A64Machine.Proofs.Multiplication
import A64Machine.Proofs.NumberTokens
import A64Machine.Proofs.Numeral
import A64Machine.Proofs.Observation
import A64Machine.Proofs.OneSource
import A64Machine.Proofs.OpcodeTable
import A64Machine.Proofs.Operand
import A64Machine.Proofs.OperandGrammar
import A64Machine.Proofs.OperandGroups
import A64Machine.Proofs.OperandPlaces
import A64Machine.Proofs.Outcome
import A64Machine.Proofs.Pattern
import A64Machine.Proofs.PrintedAddress
import A64Machine.Proofs.PrintedImmediate
import A64Machine.Proofs.PrintedLine
import A64Machine.Proofs.PrintedOperand
import A64Machine.Proofs.PrintedShape
import A64Machine.Proofs.Reassembly
import A64Machine.Proofs.RecordLoading
import A64Machine.Proofs.RecordText
import A64Machine.Proofs.Refusals
import A64Machine.Proofs.RegisterNames
import A64Machine.Proofs.RelativeTarget
import A64Machine.Proofs.RoundTrip
import A64Machine.Proofs.RunComposition
import A64Machine.Proofs.RunEnd
import A64Machine.Proofs.SecondOperand
import A64Machine.Proofs.ShiftsAndBitfields
import A64Machine.Proofs.ShownRegisters
import A64Machine.Proofs.ShownWidth
import A64Machine.Proofs.SignedSum
import A64Machine.Proofs.SourceColumns
import A64Machine.Proofs.Spelling
import A64Machine.Proofs.StateRange
import A64Machine.Proofs.StepFaults
import A64Machine.Proofs.TableSearch
import A64Machine.Proofs.TargetForms
import A64Machine.Proofs.Token
import A64Machine.Proofs.TokenPositions
import A64Machine.Proofs.WideImmediate
import A64Machine.Proofs.WideMove
import A64Machine.Proofs.ZeroAlias
import A64Machine.RawImage
import A64Machine.Register
import A64Machine.RegisterFile
import A64Machine.Settings.Basic
import A64Machine.Settings.Document
import A64Machine.Settings.Mark
import A64Machine.Settings.Markup
import A64Machine.Settings.Node
import A64Machine.Settings.ScalarText
import A64Machine.Settings.Spelling
import A64Machine.Settings.Value
import A64Machine.SourceLine
import A64Machine.SourceProgram
import A64Machine.Startup
import A64Machine.SymbolMap
import A64Machine.Text.Blank
import A64Machine.Text.ByteDigits
import A64Machine.Text.Digit
import A64Machine.Text.Letter
import A64Machine.Text.Lines
import A64Machine.Text.LowerCase
import A64Machine.Text.Number
import A64Machine.Text.Numeral
import A64Machine.Text.Printable
import A64Machine.Text.Quoted
import A64Machine.Token
import A64Machine.Transfer
