/-
  AccumulatorAsm.Operand.Basic

  Operands as they are written in a statement. The class of an operand is read off the ends of
  its token; a literal stays text until a cell is emitted for it.
-/

import AccumulatorAsm.Text.Blank
import AccumulatorAsm.Text.Quoted

namespace AccumulatorAsm

inductive Operand where
  /-- A numeric literal; the empty text counts as zero. -/
  | imm (text : String)
  /-- A reference to a label. -/
  | sym (name : String)
  /-- A literal that addresses memory indirectly. -/
  | ind (text : String)
  /-- The characters of a string, escapes already taken away. -/
  | str (text : String)
  /-- Reserved for arithmetic. -/
  | expr (inner : Operand)
  deriving DecidableEq, Repr

namespace Operand

/-- An operand as messages show it. -/
def describe : Operand → String
  | .imm text => s!"Imm(text={Text.quoted text})"
  | .sym name => s!"Sym(name={Text.quoted name})"
  | .ind text => s!"Ind(text={Text.quoted text})"
  | .str text => s!"Str(text={Text.quoted text})"
  | .expr inner => s!"Expr(inner={inner.describe})"

/-- The text between two given end characters, if a token has both. -/
def enclosed? (left right : Char) : List Char → Option (List Char)
  | [] => none
  | c :: cs =>
    if c = left ∧ cs.getLast? = some right then some cs.dropLast else none

/-- The operand that a trimmed token writes. A register, which starts with `%`, is none. -/
def ofTokenChars? (t : List Char) : Option Operand :=
  match t with
  | '%' :: _ => none
  | '$' :: name => some (.sym (String.ofList (Text.trim name)))
  | _ =>
    match enclosed? '[' ']' t, enclosed? '\x22' '\x22' t with
    | some text, _ => some (.ind (String.ofList text))
    | none, some text => some (.str (String.ofList text))
    | none, none => some (.imm (String.ofList t))

def ofToken? (token : String) : Option Operand :=
  ofTokenChars? (Text.trim token.toList)

/-- Only registers are refused. -/
theorem ofTokenChars?_eq_none_iff {t : List Char} :
    ofTokenChars? t = none ↔ t.head? = some '%' := by
  unfold ofTokenChars?
  split
  · simp
  · simp
  · next h _ =>
    constructor
    · intro hn
      split at hn <;> simp at hn
    · intro hh
      obtain ⟨r, rfl⟩ := List.head?_eq_some_iff.mp hh
      exact absurd rfl (h r)

end Operand

end AccumulatorAsm
