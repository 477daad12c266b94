/-!
# OppNet.Storage.Folder

Places for texts under paths.

- `Path` takes paths apart, down to the extension of the file that a path names.
- `Storage` is what can be read and written by path.
- `Folder` is a storage in memory.
-/

namespace OppNet

namespace Path

/-- The pieces between slashes. -/
def pieces : List Char → List (List Char)
  | [] => [[]]
  | '/' :: rest => [] :: pieces rest
  | c :: rest =>
    match pieces rest with
    | [] => [[c]]
    | piece :: others => (c :: piece) :: others

/-- The pieces that lead somewhere. -/
def parts (path : String) : List String :=
  ((pieces path.toList).map String.ofList).filter fun p => p ≠ "" && p ≠ "."

/-- The name at the end of a path, unless the path goes upwards there. -/
def fileName? (path : String) : Option String :=
  (parts path).getLast?.filter (· ≠ "..")

/-- What follows the last point of a name that does not begin with it. -/
def extensionOf? (name : String) : Option String :=
  let backwards := name.toList.reverse
  match backwards.dropWhile (· ≠ '.') with
  | _ :: _ :: _ => some (String.ofList (backwards.takeWhile (· ≠ '.')).reverse)
  | _ => none

def extension? (path : String) : Option String := (fileName? path).bind extensionOf?

def isJson (path : String) : Bool := extension? path = some "json"

end Path

structure Storage (m : Type → Type) where
  /-- The text of a file; `none` if there is no such file. -/
  read : String → m (Option String)
  /-- Creates or replaces a file, and says whether there was a place for it. -/
  write : String → String → m Bool

abbrev Folder := List (String × String)

namespace Folder

def resolve? (path : String) : Option String :=
  match Path.parts path with
  | [name] => if name = ".." || path.toList.head? = some '/' then none else some name
  | _ => none

def find? (folder : Folder) (name : String) : Option String := List.lookup name folder

def insert (folder : Folder) (name text : String) : Folder :=
  (name, text) :: folder.filter (·.1 ≠ name)

def storage : Storage (StateM Folder) where
  read path := fun folder => ((resolve? path).bind folder.find?, folder)
  write path text := fun folder =>
    match resolve? path with
    | none => (false, folder)
    | some name => (true, folder.insert name text)

end Folder

end OppNet
