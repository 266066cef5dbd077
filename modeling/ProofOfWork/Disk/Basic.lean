import ProofOfWork.Disk.Contents
import ProofOfWork.Disk.Error
import ProofOfWork.Disk.Path

/-! A file system: directories and files by their place, and the contents of files by number. A file
that was removed keeps its contents for those who still have it open. -/

namespace ProofOfWork

/-- A place in the file system: the names that lead to it from the root. -/
abbrev Location := List String

/-- What stands at a place. -/
inductive Entry
  | directory
  | file (id : Nat)
deriving DecidableEq

/-- The state of a file system. -/
structure Disk where
  entries : List (Location × Entry)
  /-- The contents of file `id`. -/
  contents : Array Contents
  /-- The greatest size that a file can have. -/
  maxFileSize : Nat

namespace Disk

/-- A file system with one directory, named `scratch`, and files of at most 16 tebibytes less
4096 bytes. -/
def scratch (name : String) : Disk := ⟨[([name], .directory)], #[], 16 * 1024 * 1024 * 1024 * 1024 - 4096⟩

/-- What stands at a place. The root is a directory. -/
def lookup (d : Disk) (place : Location) : Option Entry :=
  if place = [] then some .directory else (d.entries.find? fun e => e.1 == place).map Prod.snd

/-- The contents of file `id`. -/
def file (d : Disk) (id : Nat) : Contents := d.contents[id]?.getD .empty

/-- The disk with the contents of file `id` changed. -/
def modify (d : Disk) (id : Nat) (f : Contents → Contents) : Disk :=
  { d with contents := d.contents.modify id f }

/-- The disk with `entry` at a place. -/
def insert (d : Disk) (place : Location) (entry : Entry) : Disk :=
  { d with entries := (place, entry) :: d.entries }

/-- The disk with nothing at a place. -/
def erase (d : Disk) (place : Location) : Disk :=
  { d with entries := d.entries.filter fun e => e.1 != place }

/-- The greatest number of bytes in a name. -/
def maxNameSize : Nat := 255

/-- Where a sequence of names leads from a place. All but the last must be directories. -/
def walk (d : Disk) (place : Location) : List String → Except OsError Location
  | [] => .ok place
  | name :: rest =>
    match d.lookup place with
    | none => .error .noEntry
    | some (.file _) => .error .notDirectory
    | some .directory =>
      if name = "." then d.walk place rest
      else if name = ".." then d.walk place.dropLast rest
      else if maxNameSize < name.utf8ByteSize then .error .nameTooLong
      else d.walk (place ++ [name]) rest

/-- The names in a directory. -/
def namesIn (d : Disk) (place : Location) : List String :=
  d.entries.filterMap fun e => if e.1.dropLast = place then e.1.getLast? else none

end Disk

end ProofOfWork
