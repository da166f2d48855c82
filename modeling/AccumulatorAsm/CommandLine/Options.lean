/-
  AccumulatorAsm.CommandLine.Options

  The options of the command line. Every argument is first sorted on its own: an option under its
  letter or under its word, which may be shortened as long as it stays unique; `--`, behind which
  nothing is an option; or text, to which negative numbers and all with a blank in it belong.
  Then the options are taken from left to right. The first fault, or the request for help, ends
  that; only a missing source and arguments that nothing takes are reported at the end.

  An option whose value is attached to it, but is just `--`, is given without a value. That is a
  fault only where the value is needed, so the options keep it.
-/

import AccumulatorAsm.Image
import AccumulatorAsm.ImageFormat
import AccumulatorAsm.Text.Numeral

namespace AccumulatorAsm.CommandLine

/-! ## Options and faults -/

inductive Flag where
  | help
  | source
  | dest
  | length
  | format
  | verbose
  deriving DecidableEq, Repr

namespace Flag

def all : List Flag := [.help, .source, .dest, .length, .format, .verbose]

def letter : Flag → Char
  | .help => 'h'
  | .source => 's'
  | .dest => 'd'
  | .length => 'l'
  | .format => 'f'
  | .verbose => 'v'

def word : Flag → String
  | .help => "help"
  | .source => "src"
  | .dest => "dest"
  | .length => "len"
  | .format => "format"
  | .verbose => "verbose"

def takesValue : Flag → Bool
  | .help | .verbose => false
  | .source | .dest | .length | .format => true

/-- Both spellings of an option, as messages name it. -/
def title (f : Flag) : String :=
  s!"-{f.letter}/--{f.word}"

def ofLetter? (c : Char) : Option Flag :=
  all.find? (·.letter = c)

/-- The options whose word starts so. -/
def startingWith (start : List Char) : List Flag :=
  all.filter fun f => start.isPrefixOf f.word.toList

end Flag

inductive UsageFault where
  | ambiguous (argument : String) (candidates : List Flag)
  | expectedArgument (flag : Flag)
  | ignoredArgument (flag : Flag) (text : String)
  | invalidFormat (text : String)
  | invalidLength (text : String)
  | nonPositiveLength
  | missingSource
  | unrecognized (arguments : List String)
  deriving DecidableEq, Repr

namespace UsageFault

/-- A fault in the use of one option. -/
def ofFlag (flag : Flag) (text : String) : String :=
  s!"argument {flag.title}: {text}"

def message : UsageFault → String
  | .ambiguous argument candidates =>
    let words := String.intercalate ", " (candidates.map fun f => "--" ++ f.word)
    s!"ambiguous option: {argument} could match {words}"
  | .expectedArgument flag => ofFlag flag "expected one argument"
  | .ignoredArgument flag text => ofFlag flag ("ignored explicit argument " ++ Text.quoted text)
  | .invalidFormat text =>
    ofFlag .format s!"invalid choice: {Text.quoted text} (choose from 'hex', 'bin')"
  | .invalidLength text => ofFlag .length s!"entero inválido: {text}"
  | .nonPositiveLength => ofFlag .length "debe ser un entero positivo"
  | .missingSource => s!"the following arguments are required: {Flag.source.title}"
  | .unrecognized arguments => "unrecognized arguments: " ++ String.intercalate " " arguments

end UsageFault

/-- What keeps the program from running. -/
inductive Refusal where
  | help
  | fault (f : UsageFault)
  deriving DecidableEq, Repr

/-- The value of an option that is given: `none` where `--` is attached to it instead. -/
abbrev Value (α : Type) := Option α

structure Options where
  source : Value String
  dest : Option (Value String) := none
  length : Value Int := some Image.defaultLength
  format : Value ImageFormat := some .hex
  verbose : Bool := false
  deriving DecidableEq, Repr

/-! ## Arguments on their own -/

inductive Argument where
  | text (s : String)
  /-- The mark `--`. -/
  | endOfOptions
  /-- An option by its letter and the text right behind it. -/
  | letter (flag : Flag) (behind : List Char)
  /-- An option by its word and the text behind `=`, if there is one. -/
  | word (flag : Flag) (text : Option String)
  | unknown (s : String)
  deriving DecidableEq, Repr

namespace Argument

/-- Whether a text is digits, or a point between digits of which those in front may be missing;
    one line feed may follow. -/
def isUnsignedNumber (cs : List Char) : Bool :=
  let cs := if cs.getLast? = some '\n' then cs.dropLast else cs
  let front := cs.takeWhile Text.isDecimalDigit
  match cs.dropWhile Text.isDecimalDigit with
  | [] => front ≠ []
  | '.' :: back => back ≠ [] && back.all Text.isDecimalDigit
  | _ => false

/-- An argument behind `-` that names no option. -/
def ofUnnamed (arg : String) (behindDash : List Char) : Argument :=
  if isUnsignedNumber behindDash || ' ' ∈ behindDash then .text arg else .unknown arg

/-- The text behind the first `=`. -/
def behindEquals? (cs : List Char) : Option String :=
  match cs.dropWhile (· ≠ '=') with
  | [] => none
  | _ :: behind => some (String.ofList behind)

/-- An argument with `--` in front. -/
def ofWord (arg : String) (cs : List Char) : Except UsageFault Argument :=
  match Flag.startingWith (cs.takeWhile (· ≠ '=')) with
  | [] => .ok (ofUnnamed arg ('-' :: cs))
  | [flag] => .ok (.word flag (behindEquals? cs))
  | candidates => .error (.ambiguous arg candidates)

def read (arg : String) : Except UsageFault Argument :=
  match arg.toList with
  | '-' :: '-' :: cs => ofWord arg cs
  | '-' :: c :: cs =>
    match Flag.ofLetter? c with
    | some flag => .ok (.letter flag cs)
    | none => .ok (ofUnnamed arg (c :: cs))
  | _ => .ok (.text arg)

def readAll : List String → Except UsageFault (List Argument)
  | [] => .ok []
  | arg :: rest =>
    if arg = "--" then .ok (.endOfOptions :: rest.map .text)
    else
      match read arg with
      | .ok a => (readAll rest).map (a :: ·)
      | .error fault => .error fault

end Argument

/-! ## Options of one argument -/

/-- What one argument sets: options with their values in order, of which the last may have the
    next argument as its value. An argument that is no option is left over. -/
structure Settings where
  values : List (Flag × Value String) := []
  awaits : Option Flag := none
  leftover : Option String := none
  deriving DecidableEq, Repr

namespace Settings

/-- An option without text behind it. -/
def ofFlag (flag : Flag) : Settings :=
  if flag.takesValue then { awaits := some flag } else { values := [(flag, none)] }

def cons (flag : Flag) (s : Settings) : Settings :=
  { s with values := (flag, none) :: s.values }

/-- The value in a text that is attached to an option. -/
def attached (text : String) : Value String :=
  if text = "--" then none else some text

/-- An option with a text attached to it, which has to be its value. -/
def ofAttached (flag : Flag) (text : String) : Except UsageFault Settings :=
  if flag.takesValue then .ok { values := [(flag, attached text)] }
  else .error (.ignoredArgument flag text)

/-- Options by their letters: the text behind one that takes no value is more letters, and the
    text behind one that does is its value. -/
def ofLetters (flag : Flag) : List Char → Except UsageFault Settings
  | [] => .ok (ofFlag flag)
  | c :: cs =>
    if flag.takesValue then ofAttached flag (String.ofList (c :: cs))
    else
      match Flag.ofLetter? c with
      | none => .error (.ignoredArgument flag (String.ofList (c :: cs)))
      | some next => (ofLetters next cs).map (cons flag)

/-- An option by its letter. One `=` between the letter and the text behind it is no part of the
    text. -/
def ofLetter (flag : Flag) : List Char → Except UsageFault Settings
  | ['='] => ofAttached flag ""
  | '=' :: cs => ofLetters flag cs
  | cs => ofLetters flag cs

def ofWord (flag : Flag) : Option String → Except UsageFault Settings
  | none => .ok (ofFlag flag)
  | some text => ofAttached flag text

def ofArgument : Argument → Except UsageFault Settings
  | .text s | .unknown s => .ok { leftover := some s }
  | .endOfOptions => .ok { leftover := some "--" }
  | .letter flag behind => ofLetter flag behind
  | .word flag text => ofWord flag text

end Settings

/-! ## All arguments -/

/-- The options so far and the arguments that nothing took. -/
structure Draft where
  source : Option (Value String) := none
  dest : Option (Value String) := none
  length : Value Int := some Image.defaultLength
  format : Value ImageFormat := some .hex
  verbose : Bool := false
  extras : List String := []
  deriving DecidableEq, Repr

namespace Draft

def readLength (text : String) : Except UsageFault Int :=
  match Text.integer? text with
  | none => .error (.invalidLength text)
  | some n => if n ≤ 0 then .error .nonPositiveLength else .ok n

def readFormat (text : String) : Except UsageFault ImageFormat :=
  match ImageFormat.ofName? text with
  | none => .error (.invalidFormat text)
  | some format => .ok format

def setLength (d : Draft) : Value String → Except UsageFault Draft
  | none => .ok { d with length := none }
  | some text => (readLength text).map fun n => { d with length := some n }

def setFormat (d : Draft) : Value String → Except UsageFault Draft
  | none => .ok { d with format := none }
  | some text => (readFormat text).map fun format => { d with format := some format }

/-- The last one of an option that is given more than once counts. -/
def set (d : Draft) (flag : Flag) (value : Value String) : Except Refusal Draft :=
  match flag with
  | .help => .error .help
  | .source => .ok { d with source := some value }
  | .dest => .ok { d with dest := some value }
  | .length => (d.setLength value).mapError .fault
  | .format => (d.setFormat value).mapError .fault
  | .verbose => .ok { d with verbose := true }

def setAll (d : Draft) : List (Flag × Value String) → Except Refusal Draft
  | [] => .ok d
  | (flag, value) :: rest =>
    match d.set flag value with
    | .ok d => d.setAll rest
    | .error refusal => .error refusal

def addExtra (d : Draft) (s : String) : Draft :=
  { d with extras := d.extras ++ [s] }

/-- The options of one argument. The value of an awaiting option is the argument behind it. -/
def apply (d : Draft) (s : Settings) (next : Option String) : Except Refusal Draft :=
  let d := s.leftover.elim d d.addExtra
  match s.awaits, next with
  | none, _ => d.setAll s.values
  | some flag, some text => d.setAll (s.values ++ [(flag, some text)])
  | some flag, none => .error (.fault (.expectedArgument flag))

/-- The argument behind an option, if it may be a value. -/
def nextValue? : List Argument → Option String
  | .text s :: _ => some s
  | _ => none

def addAll (d : Draft) : List Argument → Except Refusal Draft
  | [] => .ok d
  | a :: rest =>
    match Settings.ofArgument a with
    | .error fault => .error (.fault fault)
    | .ok s =>
      match d.apply s (nextValue? rest) with
      | .error refusal => .error refusal
      | .ok d =>
        match s.awaits, rest with
        | some _, _ :: rest => d.addAll rest
        | _, rest => d.addAll rest

/-- A source has to be given; then nothing may be left over. -/
def finish (d : Draft) : Except Refusal Options :=
  match d.source with
  | none => .error (.fault .missingSource)
  | some source =>
    if d.extras = [] then
      .ok { source, dest := d.dest, length := d.length, format := d.format, verbose := d.verbose }
    else .error (.fault (.unrecognized d.extras))

end Draft

def Options.parse (args : List String) : Except Refusal Options :=
  match Argument.readAll args with
  | .error fault => .error (.fault fault)
  | .ok arguments =>
    match Draft.addAll {} arguments with
    | .error refusal => .error refusal
    | .ok d => d.finish

/-! ## Texts -/

def programName : String := "acc32-asm"

def usage : String :=
  s!"usage: {programName} [-h] -s SRC [-d DEST] [-l LENGTH] [-f \x7bhex,bin\x7d] [-v]\n"

def help : String :=
  usage ++ String.join ([
    "",
    "Ensamblador de dos pasadas para la CPU de acumulador de 32 bits",
    "",
    "options:",
    "  -h, --help            show this help message and exit",
    "  -s SRC, --src SRC     archivo fuente de entrada",
    "  -d DEST, --dest DEST  archivo de salida; si se omite se imprime el resultado",
    "  -l LENGTH, --len LENGTH",
    "                        longitud de la memoria en palabras (por defecto 256)",
    "  -f \x7bhex,bin\x7d, --format \x7bhex,bin\x7d",
    "                        hex: 8 dígitos por palabra; bin: 32 dígitos binarios",
    "  -v, --verbose         mensajes de depuración"].map (· ++ "\n"))

end AccumulatorAsm.CommandLine
