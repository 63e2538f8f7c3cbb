import LogRelay.Text.Utf8

/-! Files and directories, as far as the program reads and writes them. -/

namespace LogRelay

abbrev Place := List String

structure Disk where
  files : List (Place × Bytes) := []
  -- Directories, besides those that hold files.
  directories : List Place := []

inductive FileFault where
  | missing
  | notDirectory
  | isDirectory
  | nameTooLong
  | notText
  deriving DecidableEq, Repr

def FileFault.atOpening : FileFault → Bool
  | missing | notDirectory | nameTooLong => true
  | isDirectory | notText => false

def FileFault.message : FileFault → String
  | missing => "No such file or directory (os error 2)"
  | notDirectory => "Not a directory (os error 20)"
  | isDirectory => "Is a directory (os error 21)"
  | nameTooLong => "File name too long (os error 36)"
  | notText => "stream did not contain valid UTF-8"

def FileFault.name : FileFault → String
  | missing => "NotFound"
  | notDirectory => "NotADirectory"
  | isDirectory => "IsADirectory"
  | nameTooLong => "InvalidFilename"
  | notText => "InvalidData"

namespace Disk

def file? (d : Disk) (p : Place) : Option Bytes :=
  (d.files.find? fun e => e.1 = p).map (·.2)

def isDirectory (d : Disk) (p : Place) : Bool :=
  p.isEmpty || d.directories.any p.isPrefixOf ||
    d.files.any fun e => p.isPrefixOf e.1 && p ≠ e.1

def nameLimit : Nat := 255

def pathLimit : Nat := 4095

def walk (d : Disk) (here : Place) : List String → Except FileFault Place
  | [] => .ok here
  | name :: rest =>
    if d.isDirectory here then
      if name = "" || name = "." then walk d here rest
      else if name = ".." then walk d here.dropLast rest
      else if nameLimit < name.utf8ByteSize then .error .nameTooLong
      else walk d (here ++ [name]) rest
    else .error (if (d.file? here).isSome then .notDirectory else .missing)

def locate (d : Disk) (cwd : Place) (path : String) : Except FileFault Place :=
  if pathLimit < path.utf8ByteSize then .error .nameTooLong
  else match path.splitOn "/" with
  | [""] => .error .missing
  | "" :: names => d.walk [] names
  | names => d.walk cwd names

def read (d : Disk) (cwd : Place) (path : String) : Except FileFault Bytes := do
  let p ← d.locate cwd path
  if d.isDirectory p then throw .isDirectory
  else match d.file? p with
    | some bytes => return bytes
    | none => throw .missing

def hasPath (d : Disk) (cwd : Place) (path : String) : Bool :=
  match d.locate cwd path with
  | .error _ => false
  | .ok p => d.isDirectory p || (d.file? p).isSome

def hasRoomFor (d : Disk) (p : Place) : Bool := !(d.files.any fun e => e.1.isPrefixOf p)

def write (d : Disk) (p : Place) (bytes : Bytes) : Disk :=
  { d with files := (p, bytes) :: d.files.filter fun e => e.1 ≠ p }

end Disk
end LogRelay
