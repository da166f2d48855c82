/-
  AccumulatorAsm.Machine.Opcode

  The operations of the accumulator machine and their numbers, which fill the seven-bit
  operation field of an instruction word.
-/

namespace AccumulatorAsm

inductive Opcode where
  | and | or | inc | dec | add | sub | xor | not
  | shr | ashr | ror | rcr | shl | ashl | rol | rcl
  /-- Writes the accumulator to memory. -/
  | wac
  | jmp | je | jne | jg | jl
  /-- Reads memory into the accumulator. -/
  | rac
  | nop | iof | ion | out
  /-- Loads the temporary register. -/
  | ltr
  /-- Loads the accumulator. -/
  | lac
  | hlt
  deriving DecidableEq, Repr

namespace Opcode

/-- All operations in the order of their numbers. -/
def all : List Opcode :=
  [.and, .or, .inc, .dec, .add, .sub, .xor, .not, .shr, .ashr, .ror, .rcr, .shl, .ashl, .rol, .rcl,
   .wac, .jmp, .je, .jne, .jg, .jl, .rac, .nop, .iof, .ion, .out, .ltr, .lac, .hlt]

def number : Opcode → Nat
  | .and => 0
  | .or => 1
  | .inc => 2
  | .dec => 3
  | .add => 4
  | .sub => 5
  | .xor => 6
  | .not => 7
  | .shr => 8
  | .ashr => 9
  | .ror => 10
  | .rcr => 11
  | .shl => 12
  | .ashl => 13
  | .rol => 14
  | .rcl => 15
  | .wac => 16
  | .jmp => 17
  | .je => 18
  | .jne => 19
  | .jg => 20
  | .jl => 21
  | .rac => 22
  | .nop => 121
  | .iof => 122
  | .ion => 123
  | .out => 124
  | .ltr => 125
  | .lac => 126
  | .hlt => 127

def name : Opcode → String
  | .and => "and"
  | .or => "or"
  | .inc => "inc"
  | .dec => "dec"
  | .add => "add"
  | .sub => "sub"
  | .xor => "xor"
  | .not => "not"
  | .shr => "shr"
  | .ashr => "ashr"
  | .ror => "ror"
  | .rcr => "rcr"
  | .shl => "shl"
  | .ashl => "ashl"
  | .rol => "rol"
  | .rcl => "rcl"
  | .wac => "wac"
  | .jmp => "jmp"
  | .je => "je"
  | .jne => "jne"
  | .jg => "jg"
  | .jl => "jl"
  | .rac => "rac"
  | .nop => "nop"
  | .iof => "iof"
  | .ion => "ion"
  | .out => "out"
  | .ltr => "ltr"
  | .lac => "lac"
  | .hlt => "hlt"

def ofName? (name : String) : Option Opcode :=
  all.find? (·.name = name)

theorem mem_all (o : Opcode) : o ∈ all := by
  cases o <;> decide

/-- Every number fits the operation field. -/
theorem number_lt (o : Opcode) : o.number < 0x80 := by
  cases o <;> decide

end Opcode

end AccumulatorAsm
