/-
  AccumulatorAsm.Text.Utf8

  Octets read as UTF-8. A first octet says how many octets follow and in which range the next one
  has to be; all later ones are in `80` to `BF`. The first octet that does not fit ends the
  reading with a fault that covers the octets of the character begun, without that octet.
-/

namespace AccumulatorAsm.Utf8

inductive Reason where
  /-- An octet that starts no character. -/
  | badStart
  /-- An octet that does not continue the character before it. -/
  | badContinuation
  /-- The end of the text within a character. -/
  | cutShort
  deriving DecidableEq, Repr

def Reason.message : Reason → String
  | .badStart => "invalid start byte"
  | .badContinuation => "invalid continuation byte"
  | .cutShort => "unexpected end of data"

/-- The `length` octets from `position` on are no character; `first` is the first of them. -/
structure Fault where
  first : UInt8
  position : Nat
  length : Nat
  reason : Reason
  deriving DecidableEq, Repr

def Fault.message (f : Fault) : String :=
  let octets :=
    if f.length = 1 then
      let digits := String.ofList
        [Nat.digitChar (f.first.toNat / 16), Nat.digitChar (f.first.toNat % 16)]
      s!"byte 0x{digits} in position {f.position}"
    else
      let last := f.position + f.length - 1
      s!"bytes in position {f.position}-{last}"
  s!"'utf-8' codec can't decode {octets}: {f.reason.message}"

/-- A character begun: its first octet, where that is, how many octets are read, the bits they
    hold, how many are owed, and the range of the next one. -/
structure Begun where
  first : UInt8
  position : Nat
  count : Nat
  bits : Nat
  owed : Nat
  low : Nat
  high : Nat
  deriving DecidableEq, Repr

namespace Begun

def fault (b : Begun) (reason : Reason) : Fault :=
  ⟨b.first, b.position, b.count, reason⟩

/-- The range of the second octet keeps out overlong forms, surrogates and what is too large. -/
def start? (position : Nat) (first : UInt8) : Option Begun :=
  let n := first.toNat
  if 0xC2 ≤ n ∧ n ≤ 0xDF then some ⟨first, position, 1, n - 0xC0, 1, 0x80, 0xBF⟩
  else if n = 0xE0 then some ⟨first, position, 1, 0, 2, 0xA0, 0xBF⟩
  else if n = 0xED then some ⟨first, position, 1, 0xD, 2, 0x80, 0x9F⟩
  else if 0xE1 ≤ n ∧ n ≤ 0xEF then some ⟨first, position, 1, n - 0xE0, 2, 0x80, 0xBF⟩
  else if n = 0xF0 then some ⟨first, position, 1, 0, 3, 0x90, 0xBF⟩
  else if 0xF1 ≤ n ∧ n ≤ 0xF3 then some ⟨first, position, 1, n - 0xF0, 3, 0x80, 0xBF⟩
  else if n = 0xF4 then some ⟨first, position, 1, 4, 3, 0x80, 0x8F⟩
  else none

def add (b : Begun) (octet : UInt8) : Begun :=
  { b with
    count := b.count + 1, bits := b.bits * 64 + (octet.toNat - 0x80), owed := b.owed - 1,
    low := 0x80, high := 0xBF }

end Begun

/-- Reads on at a position, within a character or between two. -/
def decodeFrom : Nat → Option Begun → List UInt8 → Except Fault (List Char)
  | _, none, [] => .ok []
  | _, some b, [] => .error (b.fault .cutShort)
  | position, none, octet :: rest =>
    if octet.toNat < 0x80 then
      (decodeFrom (position + 1) none rest).map (Char.ofNat octet.toNat :: ·)
    else
      match Begun.start? position octet with
      | some b => decodeFrom (position + 1) (some b) rest
      | none => .error ⟨octet, position, 1, .badStart⟩
  | position, some b, octet :: rest =>
    if b.low ≤ octet.toNat ∧ octet.toNat ≤ b.high then
      if b.owed = 1 then
        (decodeFrom (position + 1) none rest).map (Char.ofNat (b.add octet).bits :: ·)
      else decodeFrom (position + 1) (some (b.add octet)) rest
    else .error (b.fault .badContinuation)

def decode (octets : List UInt8) : Except Fault String :=
  (decodeFrom 0 none octets).map String.ofList

end AccumulatorAsm.Utf8
