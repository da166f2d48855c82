/-
  AccumulatorAsm.CommandLine.Disk

  Files behind an interface of two operations, and a disk that is a value. The disk holds the
  working directory and what is below it. The directories above it and the root are there too, but
  nothing else is known of them.
-/

namespace AccumulatorAsm.CommandLine

/-! ## Access to files -/

/-- Why a file cannot be opened: the number and the text of the system's error. -/
structure AccessFault where
  number : Nat
  reason : String
  deriving DecidableEq, Repr

namespace AccessFault

def notFound : AccessFault := ⟨2, "No such file or directory"⟩

def notDirectory : AccessFault := ⟨20, "Not a directory"⟩

def isDirectory : AccessFault := ⟨21, "Is a directory"⟩

def permissionDenied : AccessFault := ⟨13, "Permission denied"⟩

def nameTooLong : AccessFault := ⟨36, "File name too long"⟩

end AccessFault

/-- Whole files are read as octets and written as text. -/
structure FileAccess (m : Type → Type) where
  read : String → m (Except AccessFault (List UInt8))
  write : String → String → m (Except AccessFault Unit)

/-! ## Disks -/

/-- The names of directories from the working directory down, and at last that of a file. A place
    out of it has `..` in front for every step up, or `/` in front if it is named from the root. -/
abbrev Path := List String

namespace Path

def root : Path := ["/"]

/-- The working directory, a directory above it, or the root. -/
def isAbove (p : Path) : Bool :=
  p = root || p.all (· = "..")

/-- The directory that a place is in; the root is in itself. -/
def parent (p : Path) : Path :=
  if p = root then root else if p.isAbove then p ++ [".."] else p.dropLast

/-- Whether a place is in the working directory or further down. -/
def isInside (p : Path) : Bool :=
  p.head? ≠ some ".." && p.head? ≠ some "/"

end Path

structure Disk where
  files : List (Path × List UInt8) := []
  dirs : List Path := []
  deriving DecidableEq, Repr

namespace Disk

def file? (d : Disk) (p : Path) : Option (List UInt8) :=
  d.files.lookup p

/-- A directory is listed, or something is in it; the working directory and all above it always
    are directories. -/
def isDir (d : Disk) (p : Path) : Bool :=
  p.isAbove || d.dirs.any (p.isPrefixOf ·) || d.files.any fun (f, _) => p.isPrefixOf f && p ≠ f

/-- The parts of a path text between the slashes. -/
def parts (path : String) : List String :=
  splitSlash path.toList |>.map String.ofList
where
  splitSlash : List Char → List (List Char)
    | [] => [[]]
    | c :: cs =>
      if c = '/' then [] :: splitSlash cs
      else
        match splitSlash cs with
        | [] => [[c]]
        | p :: ps => (c :: p) :: ps

/-- The octets that the name of one file may have. -/
def nameLimit : Nat := 255

/-- The octets that a path may have. -/
def pathLimit : Nat := 4095

/-- One part further from a place, which has to be a directory. -/
def descend (d : Disk) (place : Path) (part : String) : Except AccessFault Path :=
  if d.isDir place then
    if part = "" ∨ part = "." then .ok place
    else if part = ".." then .ok place.parent
    else if nameLimit < part.utf8ByteSize then .error .nameTooLong
    else .ok (place ++ [part])
  else if (d.file? place).isSome then .error .notDirectory
  else .error .notFound

/-- The place that the parts of a path lead to, which need not exist. -/
def follow (d : Disk) (path : String) (parts : List String) : Except AccessFault Path :=
  if path = "" then .error .notFound
  else if pathLimit < path.utf8ByteSize then .error .nameTooLong
  else
    let start := if path.toList.head? = some '/' then Path.root else []
    parts.foldlM d.descend start

def locate (d : Disk) (path : String) : Except AccessFault Path :=
  d.follow path (parts path)

def read (d : Disk) (path : String) : Except AccessFault (List UInt8) :=
  match d.locate path with
  | .error fault => .error fault
  | .ok place =>
    if d.isDir place then .error .isDirectory
    else
      match d.file? place with
      | some octets => .ok octets
      | none => .error .notFound

/-- Replaces the octets of a file or adds it. -/
def put (d : Disk) (p : Path) (octets : List UInt8) : Disk :=
  { d with files := (p, octets) :: d.files.filter (·.1 ≠ p) }

/-- The place of a file to write. A path that ends in a slash can only be a directory, and what its
    last name stands for is not looked up. -/
def locateForWriting (d : Disk) (path : String) : Except AccessFault Path :=
  match (parts path).reverse with
  | "" :: back =>
    match d.follow path ((back.dropWhile (· = "")).tail.reverse ++ ["."]) with
    | .error fault => .error fault
    | .ok _ => .error .isDirectory
  | _ =>
    match d.locate path with
    | .error fault => .error fault
    | .ok place => if d.isDir place then .error .isDirectory else .ok place

def write (d : Disk) (path text : String) : Except AccessFault Disk :=
  match d.locateForWriting path with
  | .error fault => .error fault
  | .ok place => .ok (d.put place text.toUTF8.data.toList)

/-- The access that a program has to a disk. -/
def access : FileAccess (StateM Disk) where
  read path := do return (← get).read path
  write path text := do
    match (← get).write path text with
    | .ok d =>
      set d
      return .ok ()
    | .error fault => return .error fault

/-- The files in the working directory that another disk does not have with the same octets. -/
def changedFrom (d old : Disk) : List (Path × List UInt8) :=
  d.files.filter fun (p, octets) => p.isInside && old.file? p ≠ some octets

end Disk

end AccumulatorAsm.CommandLine
