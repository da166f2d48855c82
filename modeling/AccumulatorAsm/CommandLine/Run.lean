/-
  AccumulatorAsm.CommandLine.Run

  One run of the command line over any access to files and on a machine with any room: the source
  is read and assembled, and its image printed or written. The outputs and the way the run ends
  are a value; the only effect is that of the file access.
-/

import AccumulatorAsm.Assembly
import AccumulatorAsm.CommandLine.Disk
import AccumulatorAsm.CommandLine.Options
import AccumulatorAsm.Text.Utf8

namespace AccumulatorAsm.CommandLine

/-- How a run ends: with an exit code, or by a fault that it does not handle. -/
inductive Ending where
  | exit (code : Nat)
  | undecodable (fault : Utf8.Fault)
  | invalid (value : InvalidValue)
  /-- The value of an option is needed that was given without one. -/
  | valueless (flag : Flag)
  deriving DecidableEq, Repr

structure Report where
  ending : Ending
  stdout : String := ""
  stderr : String := ""
  deriving DecidableEq, Repr

def AccessFault.message (fault : AccessFault) (path : String) : String :=
  s!"[Errno {fault.number}] {fault.reason}: {Text.quoted path}"

/-! ## The log on the error stream -/

def logLine (n : Notice) : String :=
  s!"{n.level.name} {n.logger}: {n.message}\n"

/-- Warnings are always shown, all else on demand. -/
def logText (verbose : Bool) (log : List Notice) : String :=
  String.join ((log.filter fun n => verbose || n.isWarning).map logLine)

/-! ## The run -/

/-- No path holds the character that ends texts in the system's calls. -/
def isPath (path : String) : Bool :=
  '\x00' ∉ path.toList

/-- The format of the image: binary where it was left open. -/
def Options.imageFormat (o : Options) : ImageFormat :=
  o.format.getD .bin

def Options.report (o : Options) (ending : Ending) (log : List Notice) (stdout : String := "")
    (message : String := "") : Report :=
  ⟨ending, stdout, logText o.verbose log ++ message⟩

variable {m : Type → Type} [Monad m]

/-- Writes the text of an image of so many words to a file. -/
def writeImage (files : FileAccess m) (o : Options) (log : List Notice) (count : Nat)
    (text dest : String) : m Report := do
  if isPath dest then
    match ← files.write dest text with
    | .error fault =>
      return o.report (.exit 3) log "" s!"ERROR al escribir salidas: {fault.message dest}\n"
    | .ok () =>
      return o.report (.exit 0) (log ++ [.imageWritten count o.format])
        s!"OK: {count} palabras → {dest}\n"
  else return o.report (.invalid .nulInPath) log

/-- Prints an image or writes it to its destination. -/
def deliver (files : FileAccess m) (o : Options) (log : List Notice) (image : Image) : m Report :=
  let text := o.imageFormat.render image.words
  match o.dest with
  | none => return o.report (.exit 0) log text
  | some none => return o.report (.valueless .dest) log
  | some (some dest) => writeImage files o log image.words.length text dest

/-- Assembles the text of a source. -/
def process (room : Room) (files : FileAccess m) (o : Options) (source text : String) : m Report :=
  match o.length with
  | none => return o.report (.valueless .length) []
  | some length =>
    let outcome := Assembly.assemble room text length (some source)
    match outcome.result with
    | .error (.failure f) => return o.report (.exit 1) outcome.log "" (f.report ++ "\n")
    | .error (.invalid v) => return o.report (.invalid v) outcome.log
    | .ok image => deliver files o outcome.log image

/-- Reads a source and assembles it. -/
def runSource (room : Room) (files : FileAccess m) (o : Options) (source : String) : m Report := do
  if isPath source then
    match ← files.read source with
    | .error fault =>
      return o.report (.exit 2) [] "" s!"ERROR: no pude leer {source}: {fault.message source}\n"
    | .ok octets =>
      match Utf8.decode octets with
      | .error fault => return o.report (.undecodable fault) []
      | .ok text => process room files o source text
  else return o.report (.invalid .nulInPath) []

def runOptions (room : Room) (files : FileAccess m) (o : Options) : m Report :=
  match o.source with
  | none => return o.report (.valueless .source) []
  | some source => runSource room files o source

def run (room : Room) (files : FileAccess m) (args : List String) : m Report :=
  match Options.parse args with
  | .error .help => return ⟨.exit 0, help, ""⟩
  | .error (.fault fault) =>
    return ⟨.exit 2, "", usage ++ s!"{programName}: error: {fault.message}\n"⟩
  | .ok o => runOptions room files o

end AccumulatorAsm.CommandLine
