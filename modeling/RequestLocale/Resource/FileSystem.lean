import RequestLocale.Resource.Path
import RequestLocale.Resource.Reader

/-! The file system as far as a load asks it: whether a path leads to a directory, what the
directory holds, and what a file holds. Where a path leads is for the system to say, so that nothing
is assumed here of roots, of points that lead upwards or of links. The system may refuse to let a
directory be listed or a name be looked at, whatever there is behind it.

Names and texts are made of characters. A name in bytes that encode no text has no place here, and
neither has a file in which an escape spells half of a pair (`Folder.whole`). -/
namespace RequestLocale.Resource

/-- What stands under a name in a directory. -/
inductive Entry where
  /-- A file, with its bytes or the reason why they cannot be read. -/
  | file (content : Except String (List UInt8))
  /-- Anything that is no file. -/
  | other
  /-- The system does not let it be looked at, be it a file or not. -/
  | hidden (isFile : Bool) (reason : String)

namespace Entry

/-- What reading a file gives. -/
def content? : Entry → Option (Except String (List UInt8))
  | .file content => some content
  | .hidden true reason => some (.error reason)
  | .other | .hidden false _ => none

/-- Whether the text of a file, if it is read at all, has no half of a pair. -/
def isWhole (name : String) (entry : Entry) : Bool :=
  match Format.ofName? name, entry with
  | some format, .file (.ok bytes) => !spellsHalf format bytes
  | _, _ => true

end Entry

structure Folder where
  entries : List (String × Entry)
  distinct : (entries.map (·.1)).Nodup
  whole : entries.all (fun e => e.2.isWhole e.1) = true

/-- The entries of a directory in the order of their names. -/
def Folder.inOrder (f : Folder) : List (String × Entry) :=
  f.entries.mergeSort fun a b => !decide (b.1 < a.1)

/-- Where a path leads. -/
inductive Place where
  /-- There is no directory. -/
  | missing
  | folder (f : Folder)
  /-- The system does not say whether there is a directory, or does not let it be listed. -/
  | closed (behind : Option Folder) (reason : String)

/-- The directory in a place, whether it can be listed or not. -/
def Place.folder? : Place → Option Folder
  | .missing => none
  | .folder f => some f
  | .closed behind _ => behind

structure FileSystem where
  place : Path → Place

namespace FileSystem

def empty : FileSystem := ⟨fun _ => .missing⟩

/-- A system with the given directories and no others. -/
def ofFolders (folders : List (Path × Folder)) : FileSystem :=
  ⟨fun path => (folders.lookup path).elim .missing .folder⟩

end FileSystem

end RequestLocale.Resource
