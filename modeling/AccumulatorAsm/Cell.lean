/-
  AccumulatorAsm.Cell

  Memory cells before the image is fixed. A cell that refers to a label waits for an address; a
  cell that defines one publishes its own index as the address of that label.
-/

import AccumulatorAsm.Failure
import AccumulatorAsm.Word.Basic

namespace AccumulatorAsm

structure Cell where
  value : Int
  ref : Option String := none
  defines : Option String := none
  line : Option Int := none
  deriving DecidableEq, Repr

namespace Cell

def isResolved (c : Cell) : Bool :=
  c.ref.isNone

/-- Writes an address into the value field; the cell then waits for none. -/
def resolve (c : Cell) (address : Int) : Cell :=
  { c with value := Word.withAddress c.value address, ref := none }

/-- `resolve` for a cell that may not wait for an address at all. -/
def resolve? (c : Cell) (address : Int) : Except InvalidValue Cell :=
  if c.isResolved then .error .noPendingReference else .ok (c.resolve address)

@[simp] theorem resolve_defines (c : Cell) (address : Int) :
    (c.resolve address).defines = c.defines := rfl

@[simp] theorem resolve_ref (c : Cell) (address : Int) : (c.resolve address).ref = none := rfl

@[simp] theorem resolve_line (c : Cell) (address : Int) : (c.resolve address).line = c.line := rfl

end Cell

end AccumulatorAsm
