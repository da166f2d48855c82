/-
  AccumulatorAsm.Emission

  Cells of instructions in source order. A string emits one cell per character, everything else
  one cell; the first cell carries the label. Only the first operand counts, which is noted when
  there are more, and a value that is too wide for its field is cut with a warning.
-/

import AccumulatorAsm.Cell
import AccumulatorAsm.Instruction
import AccumulatorAsm.Literal
import AccumulatorAsm.Logged

namespace AccumulatorAsm

namespace Instruction

/-- Fails at the line of the instruction. -/
def fail {α : Type} (i : Instruction) (cause : Cause) : Logged α :=
  .fail (.failure (cause.atLine (some i.line)))

/-- The value of a literal in this instruction. -/
def literal (i : Instruction) (text : String) : Logged Nat :=
  .ofExcept (Literal.read text (some i.line))

/-- The value of a literal that goes into the value field. -/
def fieldValue (i : Instruction) (text : String) : Logged Nat := do
  let value ← i.literal text
  Logged.noting (if Word.fits value Word.valueBits then [] else [.valueTruncated i.line value])
    (pure value)

/-- The only cell of an instruction. -/
def cell (i : Instruction) (value : Int) (ref : Option String := none) : Cell :=
  { value, ref, defines := i.label, line := some i.line }

/-- A character is stored by the low eight bits of its code point. -/
def stringCells (i : Instruction) : List Char → List Cell
  | [] => []
  | c :: cs =>
    i.cell (c.toNat % 0x100) :: cs.map fun c => { i.cell (c.toNat % 0x100) with defines := none }

def extraOperandNotices (i : Instruction) : List Notice :=
  if i.operands.length > 1 then [.operandsIgnored i.line (i.operands.length - 1)] else []

/-- Cells of a `.data` directive with the given operand. -/
def emitData (i : Instruction) : Operand → Logged (List Cell)
  | .str text =>
    .noting (if text = "" then [.emptyString i.line] else []) (pure (i.stringCells text.toList))
  | .sym name => pure [i.cell 0 (some name)]
  | .imm text => do
    let value ← i.literal text
    return [i.cell value]
  | op => i.fail (.dataOperand op)

/-- The cell of an operation with the given operand. A symbol leaves the value field at zero. -/
def emitOpcode (i : Instruction) (o : Opcode) : Operand → Logged Cell
  | .imm text => do
    let value ← i.fieldValue text
    return i.cell (Word.pack value o.number i.indirect)
  | .ind text => do
    let value ← i.fieldValue text
    return i.cell (Word.pack value o.number true)
  | .sym name => pure (i.cell (Word.pack 0 o.number i.indirect) (some name))
  | .expr _ => i.fail .expressionOperand
  | .str text => i.fail (.opcodeOperand o (.str text))

def emit (i : Instruction) : Logged (List Cell) :=
  match i.kind with
  | .directive .zero => pure [i.cell 0]
  | .directive .data => .noting i.extraOperandNotices (i.emitData i.firstOperand)
  | .directive (.other name) => i.fail (.unknownDirective name)
  | .opcode o => .noting i.extraOperandNotices ((fun c => [c]) <$> i.emitOpcode o i.firstOperand)

end Instruction

namespace Emission

def emitAll : List Instruction → Logged (List Cell)
  | [] => pure []
  | i :: rest => do
    let cells ← i.emit
    let more ← emitAll rest
    return cells ++ more

/-- The cells of a program; their number is noted when all are there. -/
def run (instructions : List Instruction) : Logged (List Cell) := do
  let cells ← emitAll instructions
  Logged.noting [.cellsEmitted cells.length] (pure cells)

end Emission

end AccumulatorAsm
