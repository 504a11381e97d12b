import QuditSynth.Command.Arguments
import QuditSynth.Command.Run

namespace QuditSynth

/-! # The program on a real machine -/

/-- The number of a system error, which may come with a minus sign. -/
def systemCode (code : UInt32) : UInt32 := if code < 0x80000000 then code else 0 - code

def FileError.ofSystem (error : IO.Error) : FileError :=
  match error with
  | .noFileOrDirectory .. => .notFound
  | .inappropriateType _ code _ =>
      if systemCode code = 20 then .notDirectory
      else if systemCode code = 21 then .isDirectory
      else .other (toString error)
  | .invalidArgument _ code _ | .resourceExhausted _ code _ | .otherError code _ =>
      if systemCode code = 36 then .nameTooLong else .other (toString error)
  | error => .other (toString error)

def machine : Host IO where
  read path := do
    try return .ok (← IO.FS.readFile path)
    catch error => return .error (.ofSystem error)
  write path text := do
    try
      IO.FS.writeFile path text
      return .ok ()
    catch error => return .error (.ofSystem error)
  contains path := do
    try
      let _ ← IO.FS.readFile path
      return true
    catch error => return FileError.ofSystem error ∉ [.notFound, .notDirectory, .nameTooLong]
  lookup name := IO.getEnv name
  say line := IO.println line

end QuditSynth

def main (arguments : List String) : IO UInt32 := do
  let outcome ← QuditSynth.Command.execute QuditSynth.machine arguments
  match outcome with
  | .done => pure ()
  | .failed failure => failure.report?.forM fun report => IO.eprintln report
  | .misused => QuditSynth.Command.usage.forM fun line => IO.eprintln line
  return outcome.code
