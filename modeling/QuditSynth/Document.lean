import QuditSynth.Decimal.Reading

namespace QuditSynth

/-! # Documents

The tree of a JSON text. A text may hold scalars that have no value, such as a
number beyond every double; they are kept as `unreadable`, so that a reader
fails only where it looks at one.
-/

inductive Document
  | null
  | bool (value : Bool)
  /-- A whole number between `-2 ^ 63` and `2 ^ 64 - 1`. -/
  | whole (value : Int)
  | real (value : Float)
  | text (value : String)
  | list (items : List Document)
  /-- Fields in the order of the text. A name may be as unreadable as any string. -/
  | record (fields : List (Option String × Document))
  | unreadable
deriving Inhabited

namespace Document

def ofNat (n : Nat) : Document := .whole n

/-- Doubles that are not finite have no number in a document. -/
def ofFloat (x : Float) : Document := if x.isFinite then .real x else .null

/-- A record whose names are all readable. -/
def ofFields (fields : List (String × Document)) : Document :=
  .record (fields.map fun (name, value) => (some name, value))

def ofList {α : Type} (f : α → Document) (items : List α) : Document := .list (items.map f)

mutual

/-- How many containers lie inside one another. -/
def depth : Document → Nat
  | .list items => depthOfItems items + 1
  | .record fields => depthOfFields fields + 1
  | _ => 0

def depthOfItems : List Document → Nat
  | [] => 0
  | item :: rest => max item.depth (depthOfItems rest)

def depthOfFields : List (Option String × Document) → Nat
  | [] => 0
  | (_, value) :: rest => max value.depth (depthOfFields rest)

end

mutual

/-- Whether every scalar in the tree has a value. -/
def isReadable : Document → Bool
  | .list items => allReadable items
  | .record fields => allFieldsReadable fields
  | .unreadable => false
  | _ => true

def allReadable : List Document → Bool
  | [] => true
  | item :: rest => item.isReadable && allReadable rest

def allFieldsReadable : List (Option String × Document) → Bool
  | [] => true
  | (name, value) :: rest => name.isSome && value.isReadable && allFieldsReadable rest

end

def asNat (limit : Nat) : Document → Option Nat
  | .whole value => if 0 ≤ value ∧ value < limit then some value.toNat else none
  | _ => none

/-- Whole numbers are numbers too. -/
def asFloat : Document → Option Float
  | .whole value => some (Decimal.toFloat (value < 0) ⟨value.natAbs, 0⟩)
  | .real value => some value
  | _ => none

def asText : Document → Option String
  | .text value => some value
  | _ => none

def asBool : Document → Option Bool
  | .bool value => some value
  | _ => none

def asList {α : Type} (f : Document → Option α) : Document → Option (List α)
  | .list items => items.mapM f
  | _ => none

/-- The fields of a record, provided that every name is readable. -/
def entries : Document → Option (List (String × Document))
  | .record fields => fields.mapM fun (name, value) => name.map (·, value)
  | _ => none

/-- The values of the entries with one name, in order. -/
def valuesOf {α : Type} (name : String) (entries : List (String × α)) : List α :=
  (entries.filter (·.1 = name)).map Prod.snd

/-- The value of a field that occurs at most once. -/
def valueOf {α : Type} (name : String) (entries : List (String × α)) : Option (Option α) :=
  match valuesOf name entries with
  | [] => some none
  | [value] => some (some value)
  | _ => none

/-- The values of the named fields, as far as they are there. Fields with other names are left
aside. A list stands for a record whose fields are known by their position. -/
def fields (names : List String) : Document → Option (List (Option Document))
  | .list items =>
      if items.length ≤ names.length then
        some ((List.range names.length).map fun position => items[position]?)
      else none
  | document => do
      let entries ← document.entries
      names.mapM fun name => valueOf name entries

/-- The values of the named fields, all of which have to be there. -/
def required (names : List String) (document : Document) : Option (List Document) := do
  (← document.fields names).mapM id

/-- The value of a tagged record: the text of its tag, and the other fields. In a list the tag
comes first. -/
def untag (tag : String) : Document → Option (String × Document)
  | .list (label :: rest) => do return (← label.asText, .list rest)
  | document => do
      let entries ← document.entries
      let label ← (← valueOf tag entries).bind asText
      return (label, ofFields (entries.filter (·.1 ≠ tag)))

end Document
end QuditSynth
