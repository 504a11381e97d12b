import QuditSynth.Command.Host
import QuditSynth.Text.Split

namespace QuditSynth

/-! # Files in memory

The files that a command can reach. A path is walked name by name, and every name
but the last has to be that of a directory. A directory is there if a file is in
it; of what lies outside the working directory only what every machine has is
known.
-/

/-- Where a walk begins, or how far above the working directory it has come. -/
inductive Base
  | work
  | above (levels : Nat)
  | root
deriving Repr, DecidableEq

/-- A place in the tree of directories: the names from its base on, last first. -/
structure Place where
  base : Base
  names : List String := []
deriving Repr, DecidableEq

namespace Place

/-- The directory around a place. The root lies in itself. -/
def parent : Place → Place
  | ⟨base, _ :: names⟩ => ⟨base, names⟩
  | ⟨.work, []⟩ => ⟨.above 0, []⟩
  | ⟨.above levels, []⟩ => ⟨.above (levels + 1), []⟩
  | ⟨.root, []⟩ => ⟨.root, []⟩

def child (place : Place) (name : String) : Place := { place with names := name :: place.names }

/-- Where the walk along a path begins. -/
def start (path : String) : Place := if path.startsWith "/" then ⟨.root, []⟩ else ⟨.work, []⟩

/-- Whether a place is another one or lies around it. -/
def isAround (outer inner : Place) : Bool :=
  outer.base = inner.base && outer.names.isSuffixOf inner.names

end Place

structure Disk where
  files : List (Place × String) := []

namespace Disk

/-- What is found at a place. -/
inductive Entry
  | file (text : String)
  | directory
  /-- A device that is empty and keeps nothing. -/
  | sink
  | absent
deriving Repr, DecidableEq

/-- What every machine has. -/
def fixtures : List (Place × Entry) :=
  [(⟨.root, ["null", "dev"]⟩, .sink), (⟨.root, ["dev"]⟩, .directory),
    (⟨.root, ["tmp"]⟩, .directory)]

/-- The files of a working directory, by the slashed names on the way to them. -/
def ofFiles (files : List (String × String)) : Disk :=
  ⟨files.map fun (path, text) => (⟨.work, (Text.split '/' path).reverse⟩, text)⟩

def entry (disk : Disk) (place : Place) : Entry :=
  match disk.files.lookup place with
  | some text => .file text
  | none =>
      if place.names.isEmpty || disk.files.any (place.isAround ·.1) then .directory
      else (fixtures.lookup place).getD .absent

/-- The longest name, in bytes. -/
def nameLimit : Nat := 255

/-- The longest path, in bytes. -/
def pathLimit : Nat := 4095

/-- Goes on from a directory by one part of a path. An empty part stays in the directory, as a dot
does. -/
def step (disk : Disk) (place : Place) (part : String) : Except FileError Place :=
  match disk.entry place with
  | .absent => .error .notFound
  | .file _ | .sink => .error .notDirectory
  | .directory =>
      match part with
      | "" | "." => .ok place
      | ".." => .ok place.parent
      | name => if name.utf8ByteSize ≤ nameLimit then .ok (place.child name) else .error .nameTooLong

/-- The parts of a path that can be walked. -/
def parts (path : String) : Except FileError (List String) :=
  if path = "" then .error .notFound
  else if path.utf8ByteSize ≤ pathLimit then .ok (Text.split '/' path)
  else .error .nameTooLong

/-- What a path leads to. -/
def find (disk : Disk) (path : String) : Except FileError Entry := do
  let place ← (← parts path).foldlM disk.step (Place.start path)
  match disk.entry place with
  | .absent => .error .notFound
  | found => .ok found

def read (disk : Disk) (path : String) : Except FileError String := do
  match ← disk.find path with
  | .file text => .ok text
  | .directory => .error .isDirectory
  | .sink | .absent => .ok ""

def put (disk : Disk) (place : Place) (text : String) : Disk :=
  ⟨(place, text) :: disk.files.filter (·.1 ≠ place)⟩

/-- Writes a file into a directory that is there. A path that ends in a slash names no file. -/
def write (disk : Disk) (path text : String) : Except FileError Disk := do
  match (← parts path).reverse with
  | [] | "" :: _ | "." :: _ | ".." :: _ =>
      let directory := (Text.split '/' path).reverse.dropWhile (· = "") |>.tail.reverse
      let place ← directory.foldlM disk.step (Place.start path)
      let _ ← disk.step place ""
      .error .isDirectory
  | name :: directory =>
      let place ← directory.reverse.foldlM disk.step (Place.start path)
      let place ← disk.step place name
      match disk.entry place with
      | .directory => .error .isDirectory
      | .sink => .ok disk
      | .file _ | .absent => .ok (disk.put place text)

def contains (disk : Disk) (path : String) : Bool := (disk.find path).isOk

end Disk

/-- A machine held in memory: its files, its variables, and the lines printed so far, last first. -/
structure Session where
  disk : Disk := {}
  settings : List (String × String) := []
  printed : List String := []

/-- A session takes the place of a machine. -/
def Session.host : Host (StateM Session) where
  read path := do return (← get).disk.read path
  write path text := do
    match (← get).disk.write path text with
    | .ok disk =>
        modify ({ · with disk })
        return .ok ()
    | .error error => return .error error
  contains path := do return (← get).disk.contains path
  lookup name := do return (← get).settings.lookup name
  say line := modify fun session => { session with printed := line :: session.printed }

end QuditSynth
