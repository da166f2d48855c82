/-
  AccumulatorAsm.Operand.Reading

  Tokens read as operands. The first register among them refuses the whole list.
-/

import AccumulatorAsm.Cause
import AccumulatorAsm.Operand.Token

namespace AccumulatorAsm.Operand

def read (token : String) : Except Cause Operand :=
  match ofToken? token with
  | some op => .ok op
  | none => .error (.registerOperand (Text.trimmed token))

def readAll : List String → Except Cause (List Operand)
  | [] => .ok []
  | token :: rest =>
    match read token with
    | .ok op => (readAll rest).map (op :: ·)
    | .error cause => .error cause

end AccumulatorAsm.Operand
