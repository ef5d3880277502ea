import SmallLisp.Error

/-!
# Module paths

A module is named by a path.  Its *extension* is the part of the last path element from its last
dot on, and is empty without a dot.  Source files have the extension `.lisp` or `.cl`.  A path
without extension stands for the file with `.lisp` appended, and any other extension is refused,
so only source files are ever read.
-/

namespace SmallLisp

/-- The extension of a path, the dot included. -/
def extensionOf (path : List Char) : List Char :=
  let fromEnd := path.reverse.takeWhile (· != '/')
  if fromEnd.contains '.' then '.' :: (fromEnd.takeWhile (· != '.')).reverse else []

/-- The extension that a path without one gets. -/
def defaultExtension : List Char := ".lisp".toList

/-- The other extension of source files. -/
def shortExtension : List Char := ".cl".toList

/-- Whether a path names a source file. -/
def isSourceFile (path : String) : Bool :=
  let ext := extensionOf path.toList
  ext == defaultExtension || ext == shortExtension

/-- The file that a module path stands for. -/
def modulePath (path : String) : Except Error String :=
  let ext := extensionOf path.toList
  if ext.isEmpty then .ok (path ++ String.ofList defaultExtension)
  else if isSourceFile path then .ok path
  else .error (.extension (String.ofList ext))

example : (modulePath "lib.d/math").toOption = some "lib.d/math.lisp" := by decide

example : isSourceFile "a/b.tar.cl" = true := by decide

end SmallLisp
