import SmallLisp.Path

/-!
# Files

What is found at a path is a file, a directory, or a fault that explains why there is neither.

A `Disk` is a working directory with the files in it.  A directory is there when a file is inside
it.  Paths are walked element by element, as they are spelled: an element `.` or an empty one stays
in a directory, `..` goes to the directory around it, and going anywhere from a file is a fault.
Around the working directory there are other directories, about which nothing is known but that one
of them has the null device, a file that is always empty.
-/

namespace SmallLisp

/-- Why a path leads nowhere. -/
inductive FileFault where
  /-- There is nothing. -/
  | missing
  /-- An element in front of the last is no directory. -/
  | notDirectory
  /-- The path or one of its elements is too long. -/
  | nameTooLong
  /-- The path holds the character that ends paths. -/
  | invalidName
  /-- Access is refused. -/
  | denied
deriving DecidableEq

/-- A fault in words. -/
def FileFault.reason : FileFault → String
  | missing => "no such file or directory"
  | notDirectory => "not a directory"
  | nameTooLong => "file name too long"
  | invalidName => "invalid argument"
  | denied => "permission denied"

/-- What is found at a path. -/
inductive Found where
  /-- A file with these bytes. -/
  | file (bytes : List UInt8)
  /-- A directory. -/
  | directory
  /-- Nothing that can be read. -/
  | nothing (fault : FileFault)
deriving DecidableEq

/-- Why a directory cannot be read like a file. -/
def Found.directoryReason : String := "is a directory"

/-- The bytes of the file found at a path, or why they cannot be had. -/
def Found.bytes (path : String) : Found → Except String (List UInt8)
  | file bytes => .ok bytes
  | directory => .error ("read " ++ path ++ ": " ++ directoryReason)
  | nothing fault => .error ("open " ++ path ++ ": " ++ fault.reason)

/-! ## A working directory -/

/-- A working directory with the files in it, each under its elements. -/
structure Disk where
  /-- The files; of two under the same elements the first counts. -/
  files : List (List String × List UInt8) := []

/-- A place that a path leads to. -/
inductive Place where
  /-- Under these elements, the last one first. -/
  | inside (elements : List String)
  /-- In a directory around the working directory. -/
  | outside

namespace Disk

/-- The most bytes of an element of a path. -/
def longestElement : Nat := 255

/-- The most bytes of a path. -/
def longestPath : Nat := 4095

/-- The bytes of the file under elements. -/
def file? (d : Disk) (elements : List String) : Option (List UInt8) :=
  (d.files.find? (·.1 == elements)).map (·.2)

/-- Whether elements name a directory. -/
def isDirectory (d : Disk) (elements : List String) : Bool :=
  elements.isEmpty || d.files.any fun f => elements.isPrefixOf f.1 && f.1 != elements

/-- The place that an element leads to. -/
def step (d : Disk) (element : String) : Place → Except FileFault Place
  | .outside =>
    if element = "" || element = "." || element = ".." then .ok .outside else .error .missing
  | .inside here =>
    if (d.file? here.reverse).isSome then .error .notDirectory
    else if element = "" || element = "." then .ok (.inside here)
    else if element = ".." then .ok (if here.isEmpty then .outside else .inside here.tail)
    else if longestElement < element.utf8ByteSize then .error .nameTooLong
    else
      let there := (element :: here).reverse
      if (d.file? there).isSome || d.isDirectory there then .ok (.inside (element :: here))
      else .error .missing

/-- The place that elements lead to. -/
def walk (d : Disk) (place : Place) : List String → Except FileFault Place
  | [] => .ok place
  | element :: rest =>
    match d.step element place with
    | .error fault => .error fault
    | .ok next => d.walk next rest

/-- The fault of a path that is not walked at all. -/
def refusal? (path : String) : Option FileFault :=
  if path.toList.contains (Char.ofNat 0) then some .invalidName
  else if path.isEmpty then some .missing
  else if longestPath < path.utf8ByteSize then some .nameTooLong
  else none

/-- Where walking starts. -/
def startOf (path : String) : Place :=
  if isRooted path then .outside else .inside []

/-- The path of the null device. -/
def nullDevice : String := "/dev/null"

/-- What is found at a path. -/
def find (d : Disk) (path : String) : Found :=
  match refusal? path with
  | some fault => .nothing fault
  | none =>
    if path = nullDevice then .file []
    else
      match d.walk (startOf path) (pathElements path) with
      | .error fault => .nothing fault
      | .ok .outside => .directory
      | .ok (.inside here) =>
        match d.file? here.reverse with
        | some bytes => .file bytes
        | none => .directory

/-- Puts a file under elements. -/
def put (d : Disk) (elements : List String) (bytes : List UInt8) : Disk :=
  { files := (elements, bytes) :: d.files.filter (·.1 != elements) }

/-- The elements under which a file at this path would be written: the directory in front of the
last element has to be there, and the path must not name a directory. -/
def target? (d : Disk) (path : String) : Option (List String) :=
  let elements := pathElements path
  let name := elements.getLastD ""
  if (refusal? path).isSome || name = "" || name = "." || name = ".." ||
      longestElement < name.utf8ByteSize then none
  else
    match d.walk (startOf path) elements.dropLast with
    | .ok (.inside here) =>
      let there := (name :: here).reverse
      if (d.file? here.reverse).isSome || d.isDirectory there then none else some there
    | _ => none

/-- Writes a file; the disk stays as it is if that cannot be done. -/
def write (d : Disk) (path : String) (bytes : List UInt8) : Disk :=
  match d.target? path with
  | some elements => d.put elements bytes
  | none => d

/-- Adds a file and the directories around it. -/
def add (d : Disk) (path : String) (bytes : List UInt8) : Disk :=
  d.put (pathElements (cleanPath path)) bytes

end Disk

/-- A file is no directory to go on from. -/
example : (Disk.add {} "a/b" []).find "a/b/" = .nothing .notDirectory := by decide +kernel

example : (Disk.add {} "a/b" [1]).find "./a//../a/b" = .file [1] := by decide +kernel

example : ((Disk.add {} "a/b" [1]).write "a" [2]).find "a" = .directory := by decide +kernel

end SmallLisp
