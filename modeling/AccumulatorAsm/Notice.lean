/-
  AccumulatorAsm.Notice

  Events that an assembly notes in its log. None of them changes the result: warnings tell the
  author of something that was dropped, the rest counts what was done.
-/

import AccumulatorAsm.ImageFormat

namespace AccumulatorAsm

inductive LogLevel where
  | debug
  | warning
  deriving DecidableEq, Repr

def LogLevel.name : LogLevel → String
  | .debug => "DEBUG"
  | .warning => "WARNING"

inductive Notice where
  | textAfterLabel (line : Int) (name rest : String)
  /-- A label line before any statement could take the label of line `droppedLine`. -/
  | labelReplaced (line : Int) (dropped : String) (droppedLine : Int) (name : String)
  /-- A label at the end of the text. -/
  | labelUnused (name : String) (line : Int)
  | instructionsRead (count : Nat)
  | operandsIgnored (line : Int) (count : Nat)
  /-- A value that is wider than the value field. -/
  | valueTruncated (line : Int) (value : Nat)
  | emptyString (line : Int)
  | cellsEmitted (count : Nat)
  | labelRedefined (name : String) (index previous : Nat)
  | referencesResolved (labels references : Nat)
  | padded (count : Nat)
  /-- The format is `none` where it was left open. -/
  | imageWritten (count : Nat) (format : Option ImageFormat)
  deriving DecidableEq, Repr

namespace Notice

def level : Notice → LogLevel
  | .textAfterLabel .. | .labelReplaced .. | .labelUnused .. | .operandsIgnored ..
  | .valueTruncated .. | .emptyString .. | .labelRedefined .. => .warning
  | .instructionsRead .. | .cellsEmitted .. | .referencesResolved .. | .padded ..
  | .imageWritten .. => .debug

/-- The part of the assembler that notes the event. -/
def logger : Notice → String
  | .textAfterLabel .. | .labelReplaced .. | .labelUnused .. | .instructionsRead .. =>
    "acc32_asm.parser"
  | .operandsIgnored .. | .valueTruncated .. | .emptyString .. | .cellsEmitted .. =>
    "acc32_asm.encoding"
  | .labelRedefined .. | .referencesResolved .. | .padded .. => "acc32_asm.linker"
  | .imageWritten .. => "acc32_asm.assembler"

def message : Notice → String
  | .textAfterLabel line name rest =>
    s!"línea {line}: texto tras la etiqueta '{name}' ignorado: '{rest}'"
  | .labelReplaced line dropped droppedLine name =>
    s!"línea {line}: la etiqueta '{dropped}' (línea {droppedLine}) se descarta por '{name}'"
  | .labelUnused name line =>
    s!"etiqueta '{name}' (línea {line}) sin instrucción posterior; se ignora"
  | .instructionsRead count => s!"{count} instrucciones analizadas"
  | .operandsIgnored line count =>
    s!"línea {line}: sólo se usa el primer operando ({count} ignorados)"
  | .valueTruncated line value =>
    s!"línea {line}: valor 0x{Word.hexNatural value} truncado a {Word.valueBits} bits"
  | .emptyString line => s!"línea {line}: .data \"\" no genera palabras"
  | .cellsEmitted count => s!"{count} palabras generadas"
  | .labelRedefined name index previous =>
    s!"etiqueta '{name}' redefinida en la palabra {index} (antes {previous}); gana la última"
  | .referencesResolved labels references =>
    s!"{labels} etiquetas resueltas ({references} referencias)"
  | .padded count => s!"relleno con {count} palabras a cero"
  | .imageWritten count format =>
    let name := format.elim "[]" ImageFormat.name
    s!"{count} palabras escritas en formato {name}"

def isWarning (n : Notice) : Bool :=
  n.level == .warning

end Notice

end AccumulatorAsm
