/-!
# Paths

A path is a sequence of elements separated by slashes.  `cleanPath` gives the shortest spelling that
names the same place: repeated slashes and elements `.` are dropped, and `..` takes the element in
front of it away.  At the root `..` does nothing; at the start of a relative path it stays.
-/

namespace SmallLisp

/-- The elements of a path, in order; some may be empty. -/
def pathElements (path : String) : List String :=
  (path.toList.splitOn '/').map String.ofList

/-- Whether a path starts at the root. -/
def isRooted (path : String) : Bool :=
  path.toList.head? == some '/'

/-- Adds an element to the elements of a clean path, which are given last one first. -/
def addElement (rooted : Bool) (done : List String) (element : String) : List String :=
  if element = "" || element = "." then done
  else if element = ".." then
    match done with
    | [] => if rooted then [] else [".."]
    | last :: before => if last = ".." then ".." :: done else before
  else element :: done

/-- The shortest spelling of a path. -/
def cleanPath (path : String) : String :=
  let rooted := isRooted path
  let elements := ((pathElements path).foldl (addElement rooted) []).reverse
  let text := String.intercalate "/" elements
  if rooted then "/" ++ text else if text.isEmpty then "." else text

/-- A path inside a directory. -/
def joinPath (directory path : String) : String :=
  cleanPath (directory ++ "/" ++ path)

example : joinPath "/home/u" "a/../b" = "/home/u/b" := by decide +kernel

example : joinPath "rel/" "../../x" = "../x" := by decide +kernel

example : joinPath "/" "../x" = "/x" := by decide +kernel

end SmallLisp
