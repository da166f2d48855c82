/-
  AccumulatorAsm.Main

  The program: the run of the command line over the files of the system. It takes the machine to
  have room for any image; where there is none, the system ends it.
-/

import AccumulatorAsm.CommandLine.Run

namespace AccumulatorAsm.CommandLine

/-- The fault behind a number of the system, which some calls give as its negative. -/
def faultOf (code : UInt32) (details : String) : AccessFault :=
  let number := if code < 0x80000000 then code.toNat else (0 - code).toNat
  match [AccessFault.notFound, .notDirectory, .isDirectory, .permissionDenied,
      .nameTooLong].find?
      (·.number = number) with
  | some fault => fault
  | none => ⟨number, details⟩

def accessFault : IO.Error → AccessFault
  | .noFileOrDirectory .. => .notFound
  | .permissionDenied _ code details | .inappropriateType _ code details
  | .invalidArgument _ code details | .resourceExhausted _ code details =>
    faultOf code details
  | .otherError code details => faultOf code details
  | e => ⟨5, toString e⟩

def systemFiles : FileAccess IO where
  read path := do
    try
      return .ok (← IO.FS.readBinFile path).data.toList
    catch e => return .error (accessFault e)
  write path text := do
    try
      IO.FS.writeBinFile path text.toUTF8
      return .ok ()
    catch e => return .error (accessFault e)

end AccumulatorAsm.CommandLine

open AccumulatorAsm.CommandLine in
def main (args : List String) : IO UInt32 := do
  let report ← run .countable systemFiles args
  IO.print report.stdout
  IO.eprint report.stderr
  match report.ending with
  | .exit code => return code.toUInt32
  | .undecodable fault =>
    IO.eprintln fault.message
    return 1
  | .invalid value =>
    IO.eprintln value.message
    return 1
  | .valueless flag =>
    IO.eprintln (UsageFault.expectedArgument flag).message
    return 1
