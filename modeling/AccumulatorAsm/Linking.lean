/-
  AccumulatorAsm.Linking

  References resolved to addresses. The address of a label is the index of the cell that defines
  it; it goes into the value field of every cell that refers to the label. Labels are resolved in
  the order of their first use, and the first one without a definition ends the linking.
-/

import AccumulatorAsm.Cause
import AccumulatorAsm.SymbolTable

namespace AccumulatorAsm.Linking

/-- Writes an address into the cell at an index, if there is one. -/
def resolveCell (address : Nat) (cells : List Cell) (index : Nat) :
    Except InvalidValue (List Cell) :=
  match cells[index]? with
  | some c => (c.resolve? address).map (cells.set index)
  | none => .ok cells

/-- Writes an address into the cells at the given indices, all of which have to wait for one. -/
def resolveAt (address : Nat) (sites : List Nat) (cells : List Cell) :
    Except InvalidValue (List Cell) :=
  sites.foldlM (resolveCell address) cells

/-- The line of the first cell that refers to a label. -/
def firstLine (cells : List Cell) (sites : List Nat) : Option Int :=
  (sites.head?.bind (cells[·]?)).bind (·.line)

/-- The address of a label as the cells at `sites` need it: it has to fit the value field. -/
def addressFor (cells : List Cell) (table : SymbolTable) (file : Option String) (name : String)
    (sites : List Nat) : Except Failure Nat :=
  match table.address? name with
  | none => .error ((Cause.undefinedLabel name).atLine (firstLine cells sites) file)
  | some address =>
    if Word.fits address Word.valueBits then .ok address
    else .error (.overCapacity cells.length Word.valueCount none none file)

/-- Resolves one label after the other in the cells `done`; `cells` are those of the start. -/
def resolveAll (cells : List Cell) (table : SymbolTable) (file : Option String) :
    List (String × List Nat) → List Cell → Except Fault (List Cell)
  | [], done => .ok done
  | (name, sites) :: rest, done =>
    match addressFor cells table file name sites with
    | .error failure => .error (.failure failure)
    | .ok address =>
      match resolveAt address sites done with
      | .error v => .error (.invalid v)
      | .ok done => resolveAll cells table file rest done

/-- The number of references in a table. -/
def referenceCount (table : SymbolTable) : Nat :=
  (table.pointers.flatMap fun (_, sites) => sites).length

def run (cells : List Cell) (file : Option String := none) : Logged (List Cell) :=
  let table := SymbolTable.ofCells cells
  .noting (SymbolTable.redefinitions cells) <|
    match resolveAll cells table file table.pointers cells with
    | .ok linked =>
      .noting [.referencesResolved table.pointers.length (referenceCount table)] (pure linked)
    | .error fault => .fail fault

end AccumulatorAsm.Linking
