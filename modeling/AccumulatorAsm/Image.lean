/-
  AccumulatorAsm.Image

  The memory image: as many words as the memory is long, those of the program first and zeros
  behind them. Labels are gone from it, so no cell may still wait for an address. A memory that
  needs more zeros than the machine has room for gets no image.
-/

import AccumulatorAsm.Cause
import AccumulatorAsm.Cell
import AccumulatorAsm.Logged
import AccumulatorAsm.Room

namespace AccumulatorAsm

structure Image where
  words : List Int
  deriving DecidableEq, Repr

namespace Image

/-- The length of a memory that nothing else is said of. -/
def defaultLength : Int := 256

/-- The first label that a cell still refers to. -/
def firstReference? (cells : List Cell) : Option String :=
  cells.findSome? (·.ref)

/-- The words behind those of the program. -/
def zeros (room : Room) (count : Nat) : Except InvalidValue (List Int) :=
  if Room.countLimit < count then .error .uncountableLength
  else if room.holds count then .ok (List.replicate count 0)
  else .error .outOfMemory

/-- Fixes cells to an image of the given length. -/
def ofCells (room : Room) (cells : List Cell) (length : Int) (file : Option String := none) :
    Logged Image :=
  if length ≤ 0 then .fail (.invalid .nonPositiveLength)
  else
    match firstReference? cells with
    | some name => .fail (.failure ((Cause.unresolvedReference name).atLine none file))
    | none =>
      if length < cells.length then
        .fail (.failure (.overCapacity cells.length length none none file))
      else
        let pad := length.toNat - cells.length
        .noting (if pad = 0 then [] else [.padded pad])
          (match zeros room pad with
          | .error v => .fail (.invalid v)
          | .ok words => pure ⟨cells.map (·.value) ++ words⟩)

section Zeros

variable {room : Room} {count : Nat} {words : List Int}

theorem eq_replicate_of_zeros (h : zeros room count = .ok words) :
    words = List.replicate count 0 := by
  unfold zeros at h
  split at h
  · cases h
  split at h
  · exact (Except.ok.inj h).symm
  · cases h

theorem length_of_zeros (h : zeros room count = .ok words) : words.length = count := by
  rw [eq_replicate_of_zeros h, List.length_replicate]

/-- What can be stored can be counted too. -/
theorem zeros_of_holds (h : room.holds count) :
    zeros room count = .ok (List.replicate count 0) := by
  rw [zeros, if_neg (Nat.not_lt.mpr (room.le_of_holds h)), if_pos h]

theorem zeros_of_not_holds (h : ¬ room.holds count) :
    zeros room count = .error (Room.refusal count) := by
  unfold zeros Room.refusal
  by_cases hcount : Room.countLimit < count
  · rw [if_pos hcount, if_pos hcount]
  · rw [if_neg hcount, if_neg hcount, if_neg h]

end Zeros

end Image

end AccumulatorAsm
