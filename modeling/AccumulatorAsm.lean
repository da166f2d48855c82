import AccumulatorAsm.Main
import AccumulatorAsm.Proofs.Linking
import AccumulatorAsm.Proofs.Linking.Pointwise
import AccumulatorAsm.Proofs.Linking.Staged
import AccumulatorAsm.Proofs.Linking.Renaming
import AccumulatorAsm.Proofs.SymbolTable.Exact
import AccumulatorAsm.Proofs.Emission
import AccumulatorAsm.Proofs.Emission.ValueField
import AccumulatorAsm.Proofs.Emission.Warnings
import AccumulatorAsm.Proofs.Failure
import AccumulatorAsm.Proofs.Assembly.Placement
import AccumulatorAsm.Proofs.Literal
import AccumulatorAsm.Proofs.Source.Reading
import AccumulatorAsm.Proofs.Assembly.Outcome
import AccumulatorAsm.Proofs.Source.Core
import AccumulatorAsm.Proofs.Agreement
import AccumulatorAsm.Proofs.Assembly.Layout
import AccumulatorAsm.Proofs.Operand.Written
import AccumulatorAsm.Proofs.Operand.Pieces
import AccumulatorAsm.Proofs.Operand.Strings
import AccumulatorAsm.Proofs.Operand.Intact
import AccumulatorAsm.Proofs.Source.Listing
import AccumulatorAsm.Proofs.Assembly.Output
import AccumulatorAsm.Proofs.Assembly.Disassembly
import AccumulatorAsm.Proofs.Source.Forms
import AccumulatorAsm.Proofs.Source.Acceptance
import AccumulatorAsm.Proofs.Source.Order
import AccumulatorAsm.Proofs.Source.Labels
import AccumulatorAsm.Proofs.Source.LabelNames
import AccumulatorAsm.Proofs.Assembly.FileName
import AccumulatorAsm.Proofs.Assembly.Length
import AccumulatorAsm.Proofs.Assembly.Definitions
import AccumulatorAsm.Proofs.CommandLine.FileSystem
import AccumulatorAsm.Proofs.CommandLine.Options
import AccumulatorAsm.Proofs.CommandLine.Run
import AccumulatorAsm.Proofs.Word.Symbol
import AccumulatorAsm.Proofs.Word.Numeral
import AccumulatorAsm.Proofs.Word.Packing
import AccumulatorAsm.Proofs.ImageFormat.BothFormats
