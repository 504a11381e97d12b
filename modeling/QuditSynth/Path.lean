import QuditSynth.Text.Blank
import QuditSynth.Text.Split

namespace QuditSynth.Path

/-! # File paths

A path is text whose components are parted by slashes. Empty components, and dots
after the start, do not count.
-/

/-- A component of a path. -/
inductive Component
  | root
  | current
  | parent
  | normal (name : String)
deriving Repr, DecidableEq

def Component.ofPart (isFirst : Bool) : String → Option Component
  | "" => if isFirst then some .root else none
  | "." => if isFirst then some .current else none
  | ".." => some .parent
  | name => some (.normal name)

/-- The parts of a path, the first of which may stand for the root. -/
def parts (path : String) : List String := if path = "" then [] else Text.split '/' path

/-- The components of a path from left to right. -/
def components (path : String) : List Component :=
  match parts path with
  | [] => []
  | first :: rest => (Component.ofPart true first).toList ++ rest.filterMap (Component.ofPart false)

/-- The name of the file or directory that a path ends in. -/
def fileName? (path : String) : Option String :=
  match (components path).getLast? with
  | some (.normal name) => some name
  | _ => none

/-- A name cut at its last dot. A dot at the start, or no dot, leaves it whole. -/
def splitName (name : String) : String × Option String :=
  match (Text.split '.' name).reverse with
  | [] | [_] | [_, ""] => (name, none)
  | last :: before => (Text.join "." before.reverse, some last)

/-- What follows the last dot of a file name. -/
def extension? (path : String) : Option String := do (splitName (← fileName? path)).2

/-- A file name up to its last dot, or nothing if the path names no file. -/
def stem (path : String) : String := ((fileName? path).map fun name => (splitName name).1).getD ""

/-- Whether a path has an extension, case aside. -/
def hasExtension (path extension : String) : Bool :=
  (extension? path).any fun ending => Text.lowerCase ending = extension

/-- The parts of a path, last first, without those that are no component. -/
def trimParts : List String → List String
  | part :: first :: rest =>
      if part = "" ∨ part = "." then trimParts (first :: rest) else part :: first :: rest
  | parts => parts

/-- Goes from a path to something inside it. -/
def inside (path name : String) : String :=
  if path = "" || path.endsWith "/" then path ++ name else path ++ "/" ++ name

/-- The path of another file in the same directory. -/
def withFileName (path name : String) : String :=
  match fileName? path with
  | none => inside path name
  | some _ =>
      match trimParts (trimParts (parts path).reverse).tail with
      | [] => name
      | [""] => "/" ++ name
      | directory => inside (Text.join "/" directory.reverse) name

end QuditSynth.Path
