namespace QuditSynth.Yaml

/-! # Places in a YAML text

The kinds of characters, and places in a text by line and column.
-/

def isBlank (c : Char) : Bool := c == ' ' || c == '\t'

def isBreak (c : Char) : Bool :=
  c == '\n' || c == '\r' || c == '\x85' || c == '\u2028' || c == '\u2029'

/-- The characters that a text may hold. -/
def isPrintable (c : Char) : Bool :=
  let code := c.toNat
  code == 0x09 || code == 0x0a || code == 0x0d || (0x20 ≤ code && code ≤ 0x7e) || code == 0x85 ||
    (0xa0 ≤ code && code ≤ 0xd7ff) || (0xe000 ≤ code && code ≤ 0xfffd) || 0x10000 ≤ code

/-- Whether a text is at its end or starts with a blank or a line break. -/
def isGap : List Char → Bool
  | [] => true
  | c :: _ => isBlank c || isBreak c

/-- The characters of names. -/
def isWord (c : Char) : Bool := c.isAlphanum || c == '_' || c == '-'

/-- Line breaks are all written alike, except for the two separators of lines and paragraphs. -/
def normalBreak (c : Char) : Char := if c == '\u2028' || c == '\u2029' then c else '\n'

/-- A place in a text, with the text from there on. -/
structure Cursor where
  rest : List Char
  /-- How many bytes lie before it. -/
  offset : Nat := 0
  line : Nat := 0
  /-- How many characters of its line lie before it. -/
  column : Nat := 0
deriving Repr, DecidableEq

namespace Cursor

/-- How many bytes the next characters take up. -/
def byteWidth (cursor : Cursor) (count : Nat) : Nat :=
  (cursor.rest.take count).foldl (fun total c => total + c.utf8Size) 0

/-- Moves on within a line. -/
def advance (cursor : Cursor) (count : Nat) : Cursor :=
  { cursor with
    rest := cursor.rest.drop count
    offset := cursor.offset + cursor.byteWidth count
    column := cursor.column + count }

/-- Moves over a line break. A carriage return and the line feed after it are one break. -/
def nextLine (cursor : Cursor) : Cursor :=
  let width := match cursor.rest with
    | '\r' :: '\n' :: _ => 2
    | _ => 1
  { rest := cursor.rest.drop width
    offset := cursor.offset + cursor.byteWidth width
    line := cursor.line + 1
    column := 0 }

def skipWhile (cursor : Cursor) (p : Char → Bool) : Cursor :=
  cursor.advance (cursor.rest.takeWhile p).length

/-- Moves over the blanks and the comment at the end of a line and over its break, if that is all
there is. -/
def endLine? (cursor : Cursor) : Option Cursor :=
  let cursor := cursor.skipWhile isBlank
  let cursor := if cursor.rest.head? == some '#' then cursor.skipWhile (!isBreak ·) else cursor
  match cursor.rest with
  | [] => some cursor
  | c :: _ => if isBreak c then some cursor.nextLine else none

/-- Whether a line that starts here is the given marker of three characters. -/
def atMarker (cursor : Cursor) (marker : List Char) : Bool :=
  cursor.column == 0 && marker.isPrefixOf cursor.rest && isGap (cursor.rest.drop 3)

def atDocumentMarker (cursor : Cursor) : Bool :=
  cursor.atMarker ['-', '-', '-'] || cursor.atMarker ['.', '.', '.']

end Cursor

end QuditSynth.Yaml
