/-
  AccumulatorAsm.Cause

  Why an assembly fails, with the wording, the kind and the hint of each cause. A cause becomes
  a failure at a place.
-/

import AccumulatorAsm.Failure
import AccumulatorAsm.Machine.Opcode
import AccumulatorAsm.Operand.Basic

namespace AccumulatorAsm

inductive Cause where
  | malformedLabelLine (core : String)
  | unknownInstruction (mnemonic : String)
  | registerOperand (token : String)
  /-- A literal without one of the markers `0x` and `0d`. -/
  | unmarkedLiteral (text : String)
  | hexLiteral (text : String) (fault : HexFault)
  | decimalLiteral (text : String)
  | wideLiteral (text : String)
  | unknownDirective (name : String)
  | dataOperand (op : Operand)
  | expressionOperand
  | opcodeOperand (opcode : Opcode) (op : Operand)
  | undefinedLabel (name : String)
  | unresolvedReference (name : String)
  deriving DecidableEq, Repr

namespace Cause

def kind : Cause → FailureKind
  | .malformedLabelLine _ | .unknownInstruction _ | .unknownDirective _ | .dataOperand _
  | .opcodeOperand _ _ => .badSyntax
  | .registerOperand _ | .unmarkedLiteral _ | .hexLiteral _ _ | .decimalLiteral _
  | .wideLiteral _ | .expressionOperand => .unsupported
  | .undefinedLabel _ | .unresolvedReference _ => .unlinked

def message : Cause → String
  | .malformedLabelLine core => s!"línea de etiqueta mal formada: '{core}'"
  | .unknownInstruction mnemonic => s!"instrucción desconocida: '{mnemonic}'"
  | .registerOperand token => s!"operando de registro no soportado: '{token}'"
  | .unmarkedLiteral text | .decimalLiteral text => s!"formato de literal no reconocido: '{text}'"
  | .hexLiteral text fault => s!"formato de literal no reconocido: '{text}' ({fault.message})"
  | .wideLiteral text => s!"literal decimal fuera de 32 bits: '{text}'"
  | .unknownDirective name => s!"directiva no soportada: {name}"
  | .dataOperand op => s!"operando de .data inválido: {op.describe}"
  | .expressionOperand => "operandos con expresión no soportados"
  | .opcodeOperand opcode op => s!"operando inválido para {opcode.name}: {op.describe}"
  | .undefinedLabel name => s!"etiqueta no definida: '{name}'"
  | .unresolvedReference name => s!"referencia sin resolver: '{name}'"

def hint : Cause → Option String
  | .malformedLabelLine _ => some "se esperaba '$nombre:'"
  | .unmarkedLiteral _ => some "use 0x para hexadecimal o 0d para decimal"
  | .dataOperand _ => some "use un literal, una $etiqueta o una \"cadena\""
  | .opcodeOperand _ _ => some "las cadenas sólo se admiten en .data"
  | _ => none

def atLine (c : Cause) (line : Option Int) (file : Option String := none) : Failure :=
  .new c.kind c.message line none c.hint file

@[simp] theorem withFile_atLine (c : Cause) (line : Option Int) (file : Option String) :
    (c.atLine line).withFile file = c.atLine line file :=
  Failure.withFile_new ..

@[simp] theorem withFile_atLine_self (c : Cause) (line : Option Int) (file : Option String) :
    (c.atLine line file).withFile file = c.atLine line file :=
  Failure.withFile_new_self ..

/-- A lack of room has no cause in the source text. -/
theorem kind_ne_capacity (c : Cause) (generated length : Int) :
    c.kind ≠ .capacity generated length := by
  cases c <;> exact nofun

end Cause

/-- A fault that the source text is the reason of: a failure that tells a cause, under a file name,
    or a number with too many digits. -/
inductive Fault.Caused (file : Option String) : Fault → Prop
  | failure (cause : Cause) (line : Option Int) : Caused file (.failure (cause.atLine line file))
  | overlong (count : Nat) : Caused file (.invalid (.tooManyDigits count))

theorem Fault.Caused.withFile {fault : Fault} (h : fault.Caused none) (file : Option String) :
    (fault.withFile file).Caused file := by
  cases h with
  | failure cause line =>
    rw [Fault.withFile_failure, Cause.withFile_atLine]
    exact .failure cause line
  | overlong count => exact .overlong count

theorem Fault.Caused.withFile_self {fault : Fault} {file : Option String}
    (h : fault.Caused file) : fault.withFile file = fault := by
  cases h with
  | failure cause line => rw [Fault.withFile_failure, Cause.withFile_atLine_self]
  | overlong count => rfl

theorem Fault.Caused.eq_tooManyDigits {v : InvalidValue} {file : Option String}
    (h : Fault.Caused file (.invalid v)) : ∃ count, v = .tooManyDigits count := by
  cases h with
  | overlong count => exact ⟨count, rfl⟩

end AccumulatorAsm
