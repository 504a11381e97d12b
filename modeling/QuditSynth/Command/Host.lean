namespace QuditSynth

/-! # The surroundings of a command

What a command needs of its surroundings: files, variables and a place to print.
Commands are written over any `Host`, so that they run on a real machine as well
as on a `Disk` held in memory.
-/

/-- Why a file could not be used. -/
inductive FileError
  | notFound
  | notDirectory
  | isDirectory
  | nameTooLong
  | other (reason : String)
deriving Repr, DecidableEq

def FileError.message : FileError → String
  | notFound => "No such file or directory (os error 2)"
  | notDirectory => "Not a directory (os error 20)"
  | isDirectory => "Is a directory (os error 21)"
  | nameTooLong => "File name too long (os error 36)"
  | other reason => reason

structure Host (m : Type → Type) where
  read : String → m (Except FileError String)
  write : String → String → m (Except FileError Unit)
  /-- Whether there is a file or a directory at a path. -/
  contains : String → m Bool
  lookup : String → m (Option String)
  /-- Prints a line. -/
  say : String → m Unit

/-- Why a command stopped before its end. -/
inductive Failure
  /-- What it was doing, and then the causes behind that. -/
  | reported (causes : List String)
  /-- It came to an index or a size out of range, of which it has nothing to say. -/
  | broken
deriving Repr, DecidableEq

namespace Failure

def ofMessage (message : String) : Failure := reported [message]

/-- Says what was being done. -/
def during (activity : String) : Failure → Failure
  | reported causes => reported (activity :: causes)
  | broken => broken

/-- What is printed about a failure, if anything. -/
def report? : Failure → Option String
  | reported causes => some ("Error: " ++ ": ".intercalate causes)
  | broken => none

end Failure
end QuditSynth
