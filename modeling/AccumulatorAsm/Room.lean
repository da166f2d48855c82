/-
  AccumulatorAsm.Room

  What a machine has room for. No program knows how many words its machine can store, so that is
  a parameter of everything that stores a number of them; of the parameter it is known only that
  less needs no more room, that one word can be stored, and that nothing is stored that cannot be
  counted.
-/

import AccumulatorAsm.InvalidValue

namespace AccumulatorAsm

/-- The most words that can be counted, `2 ^ 63 - 1`. -/
def Room.countLimit : Nat := 0x7FFFFFFFFFFFFFFF

structure Room where
  /-- Whether so many words can be stored behind those of a program. -/
  holds : Nat → Bool
  holds_one : holds 1
  holds_of_le {m n : Nat} : m ≤ n → holds n → holds m
  le_of_holds {n : Nat} : holds n → n ≤ Room.countLimit

namespace Room

/-- What is said of a number of words that cannot be stored. -/
def refusal (count : Nat) : InvalidValue :=
  if countLimit < count then .uncountableLength else .outOfMemory

theorem refusal_eq_or (count : Nat) :
    refusal count = .uncountableLength ∨ refusal count = .outOfMemory := by
  unfold refusal
  split
  · exact .inl rfl
  · exact .inr rfl

theorem holds_zero (room : Room) : room.holds 0 :=
  room.holds_of_le (Nat.zero_le 1) room.holds_one

/-- A machine that stores up to `limit` words. -/
def ofLimit (limit : Nat) (hpos : 0 < limit) (hcount : limit ≤ countLimit) : Room where
  holds n := n ≤ limit
  holds_one := decide_eq_true hpos
  holds_of_le hle h := decide_eq_true (Nat.le_trans hle (of_decide_eq_true h))
  le_of_holds h := Nat.le_trans (of_decide_eq_true h) hcount

/-- A machine that stores whatever can be counted. -/
def countable : Room :=
  ofLimit countLimit (by decide) (Nat.le_refl countLimit)

end Room

end AccumulatorAsm
