import QuditSynth.Document
import QuditSynth.Error
import QuditSynth.Text.Hex

namespace QuditSynth

/-! # Reading JSON texts

The grammar is strict: no comments, no trailing commas, no control characters
in strings. Numbers are read by gathering their leading digits in a word and
scaling that word by a power of ten.
-/

/-- Why a text is no document of the kind asked for. -/
inductive DocumentError
  /-- The text is not JSON, or its tree has another shape. -/
  | malformed
  /-- The tree has the right shape, but its value is refused. -/
  | invalid (error : Error)
deriving Repr, DecidableEq

namespace Document

def isSpace (c : Char) : Bool := c == ' ' || c == '\n' || c == '\t' || c == '\r'

def skipSpace (chars : List Char) : List Char := chars.dropWhile isSpace

/-! ## Strings -/

/-- A piece of a string: a character, or one half of a surrogate pair. -/
inductive Piece
  | char (c : Char)
  | half (code : Nat)
deriving Repr, DecidableEq

namespace Piece

def firstHigh : Nat := 0xd800
def firstLow : Nat := 0xdc00
def afterLow : Nat := 0xe000

def ofCode (code : Nat) : Piece :=
  if firstHigh ≤ code ∧ code < afterLow then half code else char (Char.ofNat code)

/-- Pairs the halves up. A half without its partner has no character. -/
def join : List Piece → Option (List Char)
  | [] => some []
  | char c :: rest => do return c :: (← join rest)
  | half high :: half low :: rest =>
      if high < firstLow ∧ firstLow ≤ low then do
        return Char.ofNat (0x10000 + (high - firstHigh) * 0x400 + (low - firstLow)) :: (← join rest)
      else none
  | half _ :: _ => none

def text? (pieces : List Piece) : Option String := (join pieces).map String.ofList

end Piece

/-- The character that a letter stands for after a backslash. -/
def escaped? : Char → Option Char
  | '"' => some '"'
  | '\\' => some '\\'
  | '/' => some '/'
  | 'b' => some '\x08'
  | 'f' => some '\x0c'
  | 'n' => some '\n'
  | 'r' => some '\r'
  | 't' => some '\t'
  | _ => none

/-- The pieces of a string up to its closing quote, after those already read, last first. -/
def readPieces (done : List Piece) : List Char → Option (List Piece × List Char)
  | [] => none
  | '"' :: rest => some (done.reverse, rest)
  | '\\' :: 'u' :: a :: b :: c :: d :: rest => do
      readPieces (.ofCode (← Text.hexValue [a, b, c, d]) :: done) rest
  | '\\' :: letter :: rest => do readPieces (.char (← escaped? letter) :: done) rest
  | c :: rest => if c.toNat < 0x20 ∨ c = '\\' then none else readPieces (.char c :: done) rest

/-! ## Numbers -/

/-- The parts of a number in a text. -/
structure Literal where
  negative : Bool
  whole : List Char
  /-- Digits after the point. -/
  fraction : List Char
  exponent : Int
  /-- Whether there is neither a point nor an exponent. -/
  isWhole : Bool
deriving Repr, DecidableEq

namespace Literal

/-- Appends digits to a word for as long as they fit; the digits left over come second. -/
def gather (limit : Nat) : Nat → List Char → Nat × List Char
  | word, [] => (word, [])
  | word, c :: rest =>
      let next := word * 10 + (c.toNat - '0'.toNat)
      if next < limit then gather limit next rest else (word, c :: rest)

/-- The largest power of ten that is a double. -/
def largestPower : Nat := 308

def powerOfTen (exponent : Nat) : Float := Float.ofScientific 1 false exponent

/-- Division by a power of ten, in steps that are doubles. -/
def scaleDown (x : Float) (exponent : Nat) : Float :=
  if exponent ≤ largestPower then x / powerOfTen exponent
  else if x == 0.0 then x
  else scaleDown (x / powerOfTen largestPower) (exponent - largestPower)
termination_by exponent
decreasing_by simp only [largestPower] at *; omega

/-- A double times a power of ten, unless that is infinite. -/
def scale (x : Float) : Int → Option Float
  | .negSucc exponent => some (scaleDown x (exponent + 1))
  | .ofNat exponent =>
      if exponent ≤ largestPower then
        let scaled := x * powerOfTen exponent
        if scaled.isInf then none else some scaled
      else if x == 0.0 then some x
      else none

/-- The value of a number with any number of digits. Of the digits, a word keeps those that fit. -/
def toFloat? (literal : Literal) : Option Float := do
  let limit := Nat.pow 2 64
  let (word, dropped) := gather limit 0 literal.whole
  let (word, ignored) := gather limit word literal.fraction
  let taken := literal.fraction.length - ignored.length
  let size ← scale (Decimal.toFloat false ⟨word, 0⟩) (literal.exponent + dropped.length - taken)
  return if literal.negative then -size else size

/-- Whole numbers of 64 bits stay whole, negative zero excepted. -/
def toDocument (literal : Literal) : Document :=
  let size := Numeral.value literal.whole
  let fits := if literal.negative then 0 < size ∧ size ≤ Nat.pow 2 63 else size < Nat.pow 2 64
  if literal.isWhole ∧ fits then .whole (if literal.negative then -size else size)
  else (literal.toFloat?.map Document.real).getD .unreadable

/-- A fraction after a point, which needs a digit. -/
def readFraction : List Char → Option (List Char × List Char)
  | '.' :: rest =>
      match Numeral.takeDigits rest with
      | ([], _) => none
      | (digits, rest) => some (digits, rest)
  | rest => some ([], rest)

/-- An exponent after its mark, which needs a digit. -/
def readExponent : List Char → Option (Option Int × List Char)
  | [] => some (none, [])
  | mark :: rest =>
      if mark = 'e' ∨ mark = 'E' then
        let (negative, rest) := match rest with
          | '-' :: rest => (true, rest)
          | '+' :: rest => (false, rest)
          | rest => (false, rest)
        match Numeral.takeDigits rest with
        | ([], _) => none
        | (digits, rest) =>
            let size : Int := Numeral.value digits
            some (some (if negative then -size else size), rest)
      else some (none, mark :: rest)

/-- A number: a sign, digits without a leading zero, a fraction, an exponent. -/
def read (chars : List Char) : Option (Literal × List Char) := do
  let (negative, chars) := match chars with
    | '-' :: rest => (true, rest)
    | rest => (false, rest)
  let (whole, rest) := Numeral.takeDigits chars
  match whole with
  | [] | '0' :: _ :: _ => none
  | whole =>
      let (fraction, rest) ← readFraction rest
      let (exponent, rest) ← readExponent rest
      return ({ negative, whole, fraction, exponent := exponent.getD 0
                isWhole := fraction.isEmpty && exponent.isNone }, rest)

end Literal

/-! ## Trees -/

mutual

/-- The value a text starts with, and what follows it. Every call either takes a character or is
followed by one that does, so twice the length of the text is fuel enough. -/
def readValue : Nat → List Char → Option (Document × List Char)
  | 0, _ => none
  | fuel + 1, chars =>
      match skipSpace chars with
      | 'n' :: 'u' :: 'l' :: 'l' :: rest => some (.null, rest)
      | 't' :: 'r' :: 'u' :: 'e' :: rest => some (.bool true, rest)
      | 'f' :: 'a' :: 'l' :: 's' :: 'e' :: rest => some (.bool false, rest)
      | '"' :: rest => do
          let (pieces, rest) ← readPieces [] rest
          return (((Piece.text? pieces).map text).getD unreadable, rest)
      | '[' :: rest =>
          match skipSpace rest with
          | ']' :: rest => some (.list [], rest)
          | rest => do
              let (items, rest) ← readItems fuel rest
              return (.list items, rest)
      | '\x7b' :: rest =>
          match skipSpace rest with
          | '\x7d' :: rest => some (.record [], rest)
          | rest => do
              let (fields, rest) ← readFields fuel rest
              return (.record fields, rest)
      | rest => do
          let (literal, rest) ← Literal.read rest
          return (literal.toDocument, rest)

/-- The items of a list up to its closing bracket. -/
def readItems : Nat → List Char → Option (List Document × List Char)
  | 0, _ => none
  | fuel + 1, chars => do
      let (item, rest) ← readValue fuel chars
      match skipSpace rest with
      | ',' :: rest =>
          let (items, rest) ← readItems fuel rest
          return (item :: items, rest)
      | ']' :: rest => return ([item], rest)
      | _ => none

/-- The fields of a record up to its closing brace. -/
def readFields : Nat → List Char → Option (List (Option String × Document) × List Char)
  | 0, _ => none
  | fuel + 1, chars =>
      match skipSpace chars with
      | '"' :: rest => do
          let (pieces, rest) ← readPieces [] rest
          match skipSpace rest with
          | ':' :: rest =>
              let (value, rest) ← readValue fuel rest
              let field := (Piece.text? pieces, value)
              match skipSpace rest with
              | ',' :: rest =>
                  let (fields, rest) ← readFields fuel rest
                  return (field :: fields, rest)
              | '\x7d' :: rest => return ([field], rest)
              | _ => none
          | _ => none
      | _ => none

end

/-- The document a text starts with, and what follows it. -/
def parse (text : String) : Option (Document × List Char) :=
  let chars := text.toList
  readValue (2 * chars.length + 2) chars

/-- Reads a value from a text. The value is built, and may be refused, before what follows it is
looked at. -/
def read {α β : Type} (text : String) (decode : Document → Option α)
    (accept : α → Except Error β) : Except DocumentError β :=
  match parse text with
  | none => .error .malformed
  | some (document, rest) =>
      match decode document with
      | none => .error .malformed
      | some raw =>
          match accept raw with
          | .error error => .error (.invalid error)
          | .ok value => if (skipSpace rest).isEmpty then .ok value else .error .malformed

end Document
end QuditSynth
