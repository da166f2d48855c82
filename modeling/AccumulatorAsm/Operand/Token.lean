/-
  AccumulatorAsm.Operand.Token

  The operand part of a statement, split into tokens at the commas outside double quotes. A
  backslash takes the next character as it is, `n` as a line feed, and so keeps a quote from
  opening or closing a string; quotes stay in the token. A backslash at the very end stays.
-/

import AccumulatorAsm.Text.Blank

namespace AccumulatorAsm.Operand

/-- The character that a backslash and `c` write. -/
def escaped (c : Char) : Char :=
  if c = 'n' then '\n' else c

/-- Pieces of a text: the one that is being read and those behind it. -/
structure Pieces where
  first : List Char
  rest : List (List Char)
  deriving DecidableEq, Repr

namespace Pieces

def cons (c : Char) (p : Pieces) : Pieces :=
  ⟨c :: p.first, p.rest⟩

def toList (p : Pieces) : List (List Char) :=
  p.first :: p.rest

/-- Starts a piece in front of the others. -/
def cut (p : Pieces) : Pieces :=
  ⟨[], p.toList⟩

end Pieces

/-- Reads on inside a string or outside. -/
def split (inString : Bool) : List Char → Pieces
  | [] => ⟨[], []⟩
  | ['\\'] => ⟨['\\'], []⟩
  | '\\' :: c :: cs => (split inString cs).cons (escaped c)
  | '\x22' :: cs => (split (!inString) cs).cons '\x22'
  | ',' :: cs => if inString then (split inString cs).cons ',' else (split inString cs).cut
  | c :: cs => (split inString cs).cons c

/-- A blank text has no tokens; any other has one more than separating commas, and a token may
    be empty. -/
def tokensOf (cs : List Char) : List (List Char) :=
  if Text.trim cs = [] then [] else (split false cs).toList.map Text.trim

def tokens (text : String) : List String :=
  (tokensOf text.toList).map String.ofList

end AccumulatorAsm.Operand
