/-
  AccumulatorAsm.Instruction

  Statements as they leave the reader: what to do, with which operands, under which label, and
  where in the source text it was written.
-/

import AccumulatorAsm.Machine.Mnemonic
import AccumulatorAsm.Operand.Basic

namespace AccumulatorAsm

structure Instruction where
  kind : StatementKind
  operands : List Operand := []
  indirect : Bool := false
  label : Option String := none
  line : Int := 0
  deriving DecidableEq, Repr

namespace Instruction

/-- All statements are reported at the first column. -/
def col (_ : Instruction) : Int := 1

def isDirective (i : Instruction) : Bool :=
  match i.kind with
  | .directive _ => true
  | .opcode _ => false

/-- The operand that counts; a missing one is the literal zero. -/
def firstOperand (i : Instruction) : Operand :=
  i.operands.headD (.imm "")

end Instruction

end AccumulatorAsm
