import QuditSynth.Text.Hex
import QuditSynth.Yaml.Cursor

namespace QuditSynth.Yaml

/-! # Scalars of a YAML text

The four ways to write a scalar. A line break inside a plain or quoted scalar is
folded: a single one becomes a blank, and of several all but the first stay. A
block scalar keeps its line breaks, or folds those between lines that start with
no blank.
-/

/-- Blanks and line breaks between two parts of a scalar. -/
structure Gap where
  /-- Blanks before the first line break. -/
  blanks : List Char := []
  /-- The first line break, or nothing in its place if it was escaped. -/
  lineBreak : Option (List Char) := none
  /-- Further line breaks. -/
  more : List Char := []
  /-- Where the gap ends. -/
  cursor : Cursor

namespace Gap

/-- What a gap stands for inside a scalar. -/
def text (gap : Gap) : List Char :=
  match gap.lineBreak with
  | none => gap.blanks
  | some ['\n'] => if gap.more.isEmpty then [' '] else gap.more
  | some lineBreak => lineBreak ++ gap.more

/-- Extends a gap as far as it goes. A tab must not stand for indentation before a column. -/
def extend (indent : Nat) : Nat → Gap → Option Gap
  | 0, gap => some gap
  | fuel + 1, gap =>
      match gap.cursor.rest with
      | [] => some gap
      | c :: _ =>
          if isBlank c then
            if gap.lineBreak.isSome then
              if c == '\t' && gap.cursor.column < indent then none
              else extend indent fuel { gap with cursor := gap.cursor.advance 1 }
            else
              extend indent fuel
                { gap with blanks := gap.blanks ++ [c], cursor := gap.cursor.advance 1 }
          else if isBreak c then
            let cursor := gap.cursor.nextLine
            extend indent fuel (
              if gap.lineBreak.isSome then
                { gap with more := gap.more ++ [normalBreak c], cursor }
              else { blanks := [], lineBreak := some [normalBreak c], cursor })
          else some gap

/-- The gap at a place. -/
def read (indent : Nat) (start : Gap) : Option Gap :=
  extend indent start.cursor.rest.length start

end Gap

/-- A scalar that was read: its text, where it ends, and whether a line break comes before that
end. -/
structure ScalarText where
  text : List Char
  cursor : Cursor
  afterBreak : Bool

/-! ## Plain scalars -/

/-- The characters that end a plain scalar inside brackets. -/
def flowIndicators : List Char := [',', '[', ']', '\x7b', '\x7d']

/-- The part of a plain scalar before the next blank, line break or indicator. -/
def plainPart (inFlow : Bool) : List Char → Option (List Char)
  | [] => some []
  | c :: rest =>
      if isBlank c || isBreak c then some []
      else if inFlow && c == ':' && rest.head?.any ('?' :: flowIndicators).contains then none
      else if c == ':' && isGap rest || inFlow && flowIndicators.contains c then some []
      else do return c :: (← plainPart inFlow rest)

/-- A plain scalar whose lines are indented to a column, going on after what is read already. -/
def readPlain (inFlow : Bool) (indent : Nat) : Nat → List Char → Gap → Option ScalarText
  | 0, text, gap => some ⟨text, gap.cursor, gap.lineBreak.isSome⟩
  | fuel + 1, text, gap =>
      let stopped : Option ScalarText := some ⟨text, gap.cursor, gap.lineBreak.isSome⟩
      if gap.cursor.atDocumentMarker || gap.cursor.rest.head? == some '#' then stopped
      else do
        let part ← plainPart inFlow gap.cursor.rest
        if part.isEmpty then stopped
        else
          let text := text ++ gap.text ++ part
          let next ← Gap.read indent { cursor := gap.cursor.advance part.length }
          if next.blanks.isEmpty && next.lineBreak.isNone then return ⟨text, next.cursor, false⟩
          else if !inFlow && next.cursor.column < indent then
            return ⟨text, next.cursor, next.lineBreak.isSome⟩
          else readPlain inFlow indent fuel text next

/-! ## Quoted scalars -/

/-- The part of a scalar in single quotes before the next blank or break or its end, and how many
characters it takes up. A quote is written twice. -/
def singlePart : List Char → List Char × Nat
  | [] => ([], 0)
  | '\'' :: '\'' :: rest =>
      let (text, width) := singlePart rest
      ('\'' :: text, width + 2)
  | c :: rest =>
      if c == '\'' || isBlank c || isBreak c then ([], 0)
      else
        let (text, width) := singlePart rest
        (c :: text, width + 1)

/-- The character that a letter stands for after a backslash. -/
def escaped? : Char → Option Char
  | '0' => some '\x00'
  | 'a' => some '\x07'
  | 'b' => some '\x08'
  | 't' | '\t' => some '\t'
  | 'n' => some '\n'
  | 'v' => some '\x0b'
  | 'f' => some '\x0c'
  | 'r' => some '\r'
  | 'e' => some '\x1b'
  | ' ' => some ' '
  | '"' => some '"'
  | '/' => some '/'
  | '\\' => some '\\'
  | 'N' => some '\x85'
  | '_' => some '\xa0'
  | 'L' => some '\u2028'
  | 'P' => some '\u2029'
  | _ => none

/-- How many hexadecimal digits follow a letter after a backslash. -/
def codeWidth? : Char → Option Nat
  | 'x' => some 2
  | 'u' => some 4
  | 'U' => some 8
  | _ => none

def codeChar? (code : Nat) : Option Char :=
  if 0xd800 ≤ code ∧ code ≤ 0xdfff ∨ 0x10ffff < code then none else some (Char.ofNat code)

/-- A part of a scalar in double quotes: its text, how many characters it takes up, and whether it
ends with a backslash before a line break. -/
structure DoublePart where
  text : List Char := []
  width : Nat := 0
  escapesBreak : Bool := false

def DoublePart.cons (c : Char) (width : Nat) (part : DoublePart) : DoublePart :=
  { part with text := c :: part.text, width := part.width + width }

/-- The part of a scalar in double quotes before the next blank or break or its end. -/
def doublePart : Nat → List Char → Option DoublePart
  | 0, _ | _, [] => some {}
  | fuel + 1, '\\' :: c :: rest =>
      if isBreak c then some { width := 1, escapesBreak := true }
      else
        match codeWidth? c with
        | some width =>
            if rest.length < width then none
            else do
              let decoded ← codeChar? (← Text.hexValue (rest.take width))
              return (← doublePart fuel (rest.drop width)).cons decoded (width + 2)
        | none => do return (← doublePart fuel rest).cons (← escaped? c) 2
  | fuel + 1, c :: rest =>
      if c == '\\' then none
      else if c == '"' || isBlank c || isBreak c then some {}
      else do return (← doublePart fuel rest).cons c 1

/-- A scalar from after its opening quote on. -/
def readQuoted (double : Bool) : Nat → List Char → Cursor → Option ScalarText
  | 0, _, _ => none
  | fuel + 1, text, cursor =>
      if cursor.atDocumentMarker then none
      else do
        let part ← if double then doublePart cursor.rest.length cursor.rest
          else
            let (text, width) := singlePart cursor.rest
            some { text, width }
        let cursor := cursor.advance part.width
        let text := text ++ part.text
        match cursor.rest with
        | [] => none
        | c :: _ =>
            if c == (if double then '"' else '\'') then
              return ⟨text, cursor.advance 1, false⟩
            else
              let gap ← Gap.read 0 (
                if part.escapesBreak then { lineBreak := some [], cursor := cursor.nextLine }
                else { cursor })
              readQuoted double fuel (text ++ gap.text) gap.cursor

/-! ## Block scalars -/

/-- What becomes of the line breaks at the end of a block scalar. -/
inductive Chomping
  | strip
  | clip
  | keep
deriving Repr, DecidableEq

def Chomping.ofChar? : Char → Option Chomping
  | '-' => some .strip
  | '+' => some .keep
  | _ => none

/-- A digit for the indentation of a block scalar, or zero if there is none, and what follows. A
written zero is refused. -/
def readIncrement : List Char → Option (Nat × List Char)
  | [] => some (0, [])
  | c :: rest =>
      if c == '0' then none
      else if c.isDigit then some (c.toNat - '0'.toNat, rest)
      else some (0, c :: rest)

/-- The chomping and the indentation that a block scalar asks for, in either order, and what
follows them. -/
def readHeader (chars : List Char) : Option (Chomping × Nat × List Char) :=
  match chars.head? >>= Chomping.ofChar? with
  | some chomping => do
      let (increment, rest) ← readIncrement chars.tail
      return (chomping, increment, rest)
  | none => do
      let (increment, rest) ← readIncrement chars
      match if increment = 0 then none else rest.head? >>= Chomping.ofChar? with
      | some chomping => return (chomping, increment, rest.tail)
      | none => return (.clip, increment, rest)

/-- The empty lines at a place, and the indentation of the line after them up to a column. Column
zero stands for one that is still to be found out. -/
structure Indentation where
  lineBreaks : List Char := []
  /-- The largest indentation seen. -/
  deepest : Nat := 0
  cursor : Cursor

/-- Extends an indentation as far as it goes. A tab cannot be a part of it. -/
def Indentation.extend (column : Nat) : Nat → Indentation → Option Indentation
  | 0, indentation => some indentation
  | fuel + 1, indentation =>
      let here := indentation.cursor
      let blanks := (here.rest.takeWhile (· == ' ')).length
      let cursor := here.advance (if column = 0 then blanks else min blanks (column - here.column))
      let deepest := max indentation.deepest cursor.column
      match cursor.rest with
      | [] => some { indentation with deepest, cursor }
      | c :: _ =>
          if c == '\t' && (column = 0 || cursor.column < column) then none
          else if isBreak c then
            extend column fuel
              { lineBreaks := indentation.lineBreaks ++ [normalBreak c]
                deepest
                cursor := cursor.nextLine }
          else some { indentation with deepest, cursor }

def Indentation.read (column : Nat) (cursor : Cursor) : Option Indentation :=
  extend column (cursor.rest.length + 1) { cursor }

/-- A block scalar that is being read. -/
structure BlockText where
  text : List Char := []
  /-- The break at the end of the last line. -/
  lineBreak : List Char := []
  /-- Whether the last line started with a blank. -/
  afterBlank : Bool := false
  /-- The empty lines after it, and the place that they lead to. -/
  indentation : Indentation

namespace BlockText

/-- Adds the lines that start at a column. -/
def addLines (literal : Bool) (column : Nat) : Nat → BlockText → Option BlockText
  | 0, block => some block
  | fuel + 1, block =>
      let cursor := block.indentation.cursor
      if cursor.column ≠ column || cursor.rest.isEmpty then some block
      else do
        let isIndented := cursor.rest.head?.any isBlank
        let folds := !literal && block.lineBreak == ['\n'] && !block.afterBlank && !isIndented
        let lineBreak :=
          if !folds then block.lineBreak
          else if block.indentation.lineBreaks.isEmpty then [' ']
          else []
        let line := cursor.rest.takeWhile (!isBreak ·)
        let cursor := cursor.advance line.length
        let (lineEnd, cursor) := match cursor.rest with
          | [] => ([], cursor)
          | c :: _ => ([normalBreak c], cursor.nextLine)
        addLines literal column fuel
          { text := block.text ++ lineBreak ++ block.indentation.lineBreaks ++ line
            lineBreak := lineEnd
            afterBlank := isIndented
            indentation := ← Indentation.read column cursor }

/-- The whole text. -/
def finish (block : BlockText) : Chomping → List Char
  | .strip => block.text
  | .clip => block.text ++ block.lineBreak
  | .keep => block.text ++ block.lineBreak ++ block.indentation.lineBreaks

end BlockText

/-- A block scalar inside a block at a column, from after its indicator on. Its own column is the
one asked for, or else that of its first line that is not empty, to the right of the block. -/
def readBlock (literal : Bool) (outer : Int) (cursor : Cursor) : Option ScalarText := do
  let (chomping, increment, rest) ← readHeader cursor.rest
  let cursor ← (cursor.advance (cursor.rest.length - rest.length)).endLine?
  let asked := if increment = 0 then 0 else outer.toNat + increment
  let indentation ← Indentation.read asked cursor
  let column :=
    if asked = 0 then max indentation.deepest (max (outer + 1).toNat 1) else asked
  let block ← BlockText.addLines literal column (cursor.rest.length + 1) { indentation }
  return ⟨block.finish chomping, block.indentation.cursor, true⟩

end QuditSynth.Yaml
