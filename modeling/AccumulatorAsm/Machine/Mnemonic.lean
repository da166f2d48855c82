/-
  AccumulatorAsm.Machine.Mnemonic

  The words that open a statement: the directives, the operations under their own names, and the
  six names that select indirect addressing as well.
-/

import AccumulatorAsm.Machine.Opcode

namespace AccumulatorAsm

inductive Directive where
  | zero
  | data
  /-- A directive that the assembler does not know. -/
  | other (name : String)
  deriving DecidableEq, Repr

namespace Directive

def name : Directive → String
  | .zero => ".zero"
  | .data => ".data"
  | .other name => name

def ofName (name : String) : Directive :=
  if name = ".zero" then .zero else if name = ".data" then .data else .other name

/-- The known directives in alphabetical order. -/
def known : List Directive := [.data, .zero]

end Directive

inductive StatementKind where
  | directive (d : Directive)
  | opcode (o : Opcode)
  deriving DecidableEq, Repr

/-- What a mnemonic stands for. -/
structure Mnemonic where
  kind : StatementKind
  indirect : Bool
  deriving DecidableEq, Repr

namespace Mnemonic

/-- All mnemonics: directives, operations, then the names with indirect addressing. -/
def table : List (String × Mnemonic) :=
  Directive.known.map (fun d => (d.name, ⟨.directive d, false⟩))
    ++ Opcode.all.map (fun o => (o.name, ⟨.opcode o, false⟩))
    ++ [("laci", ⟨.opcode .lac, true⟩), ("jmpi", ⟨.opcode .jmp, true⟩),
        ("jei", ⟨.opcode .je, true⟩), ("jnei", ⟨.opcode .jne, true⟩),
        ("jgi", ⟨.opcode .jg, true⟩), ("jli", ⟨.opcode .jl, true⟩)]

/-- Upper and lower case differ. -/
def ofName? (name : String) : Option Mnemonic :=
  table.lookup name

/-- What is said about a name that is no mnemonic. -/
def unknownMessage (name : String) : String :=
  s!"Instrucción desconocida: {name}"

theorem table_names_nodup : (table.map Prod.fst).Nodup := by
  decide

end Mnemonic

end AccumulatorAsm
