import QuditSynth.Yaml.Scalar
import QuditSynth.Yaml.Tag

namespace QuditSynth.Yaml

/-! # Tokens of a YAML text

Indentation is turned into tokens that open and close blocks. That a scalar or a
bracket begins a key shows only at the colon after it; so an empty slot is kept
before everything that may begin one, and filled when the colon comes.

An anchor names the node after it, and a reference stands for the node of that name.
Names are turned into numbers here: an anchor gets the number of names that are
known before it.
-/

/-- How a scalar is written. -/
inductive ScalarStyle
  | plain
  | quoted
  | literal
  | folded
deriving Repr, DecidableEq

inductive Token
  | directive
  | documentStart
  | documentEnd
  | blockMappingStart
  | blockSequenceStart
  | blockEnd
  | blockEntry
  | flowMappingStart
  | flowMappingEnd
  | flowSequenceStart
  | flowSequenceEnd
  | flowEntry
  | key
  | value
  | anchor (number : Nat)
  | reference (number : Nat)
  | tag (tag : String)
  | scalar (text : String) (style : ScalarStyle)
deriving Repr, DecidableEq

/-- A place where a key may have begun. -/
structure KeyCandidate where
  slot : Nat
  start : Cursor
  /-- Whether nothing but a key can stand there. -/
  required : Bool

structure Scanner where
  cursor : Cursor
  /-- The tokens so far, in slots that may still be filled. -/
  slots : Array (List Token) := #[]
  /-- The column of the innermost block. -/
  indent : Int := -1
  /-- The columns of the blocks around it. -/
  outerIndents : List Int := []
  keyAllowed : Bool := true
  candidate : Option KeyCandidate := none
  /-- The candidates outside each bracket that is open. -/
  outerCandidates : List (Option KeyCandidate) := []
  /-- The names of anchors, with the number that each got last. -/
  anchors : List (String × Nat) := []
  /-- The handles that were declared. -/
  handles : List (String × String) := []
  /-- Whether a version was given. -/
  hasVersion : Bool := false

namespace Scanner

/-- Whether a bracket is open. -/
def inFlow (scanner : Scanner) : Bool := !scanner.outerCandidates.isEmpty

def push (scanner : Scanner) (token : Token) : Scanner :=
  { scanner with slots := scanner.slots.push [token] }

/-- Adds a token of one or more characters. -/
def emit (scanner : Scanner) (token : Token) (width : Nat) : Scanner :=
  { scanner.push token with cursor := scanner.cursor.advance width }

/-- Moves over blanks, comments and line breaks, and over a byte order mark that starts a line.
Tabs count as blanks only where no key can begin. -/
def skipSpace : Nat → Scanner → Scanner
  | 0, scanner => scanner
  | fuel + 1, scanner =>
      let tabs := scanner.inFlow || !scanner.keyAllowed
      let atMark := scanner.cursor.column == 0 && scanner.cursor.rest.head? == some '\ufeff'
      let cursor := if atMark then scanner.cursor.advance 1 else scanner.cursor
      let cursor := cursor.skipWhile fun c => c == ' ' || (tabs && c == '\t')
      let cursor := if cursor.rest.head? == some '#' then cursor.skipWhile (!isBreak ·) else cursor
      if cursor.rest.head?.any isBreak then
        skipSpace fuel
          { scanner with
            cursor := cursor.nextLine
            keyAllowed := scanner.keyAllowed || !scanner.inFlow }
      else { scanner with cursor }

/-- The longest key, in bytes. -/
def keyLimit : Nat := 1024

/-- A key ends on the line on which it began. -/
def isStale (cursor : Cursor) (candidate : KeyCandidate) : Bool :=
  candidate.start.line < cursor.line || candidate.start.offset + keyLimit < cursor.offset

/-- Gives up a candidate that can no longer be a key. -/
def expire (cursor : Cursor) : Option KeyCandidate → Option (Option KeyCandidate)
  | none => some none
  | some candidate =>
      if isStale cursor candidate then if candidate.required then none else some none
      else some (some candidate)

def expireCandidates (scanner : Scanner) : Option Scanner := do
  let candidate ← expire scanner.cursor scanner.candidate
  let outerCandidates ← scanner.outerCandidates.mapM (expire scanner.cursor)
  return { scanner with candidate, outerCandidates }

/-- Gives up the candidate of this level, unless it has to be a key. -/
def dropCandidate (scanner : Scanner) : Option Scanner :=
  if scanner.candidate.any (·.required) then none else some { scanner with candidate := none }

/-- Notes that a key may begin here. -/
def noteCandidate (scanner : Scanner) : Option Scanner :=
  if scanner.keyAllowed then do
    let scanner ← scanner.dropCandidate
    let candidate : KeyCandidate :=
      { slot := scanner.slots.size
        start := scanner.cursor
        required := !scanner.inFlow && scanner.indent == scanner.cursor.column }
    return { scanner with slots := scanner.slots.push [], candidate := some candidate }
  else some scanner

/-- Puts a token at the front of a slot, or at the end of all if none is named. -/
def place (scanner : Scanner) (token : Token) : Option Nat → Scanner
  | some slot => { scanner with slots := scanner.slots.modify slot (token :: ·) }
  | none => scanner.push token

/-- Opens a block at a column to the right of the innermost one. -/
def openBlock (scanner : Scanner) (column : Nat) (token : Token) (slot : Option Nat) : Scanner :=
  if !scanner.inFlow && scanner.indent < column then
    { scanner.place token slot with
      indent := column
      outerIndents := scanner.indent :: scanner.outerIndents }
  else scanner

/-- Closes the innermost block for as long as it lies to the right of a column. -/
def closeInnermost (column : Int) (scanner : Scanner) : List Int → Scanner
  | [] => scanner
  | outer :: rest =>
      if column < scanner.indent then
        closeInnermost column
          { scanner.push .blockEnd with indent := outer, outerIndents := rest } rest
      else scanner

/-- Closes the blocks to the right of a column. Inside brackets there are none. -/
def closeBlocks (scanner : Scanner) (column : Int) : Scanner :=
  if scanner.inFlow then scanner else closeInnermost column scanner scanner.outerIndents

/-- A line before a document that says how to read it. -/
def directive (scanner : Scanner) : Option Scanner := do
  let scanner ← (scanner.closeBlocks (-1)).dropCandidate
  let (directive, cursor) ← readDirective (scanner.cursor.advance 1)
  let scanner := { scanner.push .directive with cursor, keyAllowed := false }
  match directive with
  | .version major minor =>
      if scanner.hasVersion || major ≠ 1 || minor ∉ [1, 2] then none
      return { scanner with hasVersion := true }
  | .handle name start =>
      if (scanner.handles.lookup name).isSome then none
      return { scanner with handles := (name, start) :: scanner.handles }

/-- A line that starts or ends a document. -/
def documentMarker (scanner : Scanner) (token : Token) : Option Scanner := do
  let scanner ← (scanner.closeBlocks (-1)).dropCandidate
  return { scanner.emit token 3 with keyAllowed := false }

def openBracket (scanner : Scanner) (token : Token) : Option Scanner := do
  let scanner ← scanner.noteCandidate
  return { scanner.emit token 1 with
    keyAllowed := true
    candidate := none
    outerCandidates := scanner.candidate :: scanner.outerCandidates }

def closeBracket (scanner : Scanner) (token : Token) : Option Scanner := do
  let scanner ← scanner.dropCandidate
  let scanner := { scanner.emit token 1 with keyAllowed := false }
  match scanner.outerCandidates with
  | [] => return scanner
  | candidate :: outerCandidates => return { scanner with candidate, outerCandidates }

def flowEntry (scanner : Scanner) : Option Scanner := do
  let scanner ← scanner.dropCandidate
  return { scanner.emit .flowEntry 1 with keyAllowed := true }

/-- A dash before an item of a list. -/
def blockEntry (scanner : Scanner) : Option Scanner := do
  if !scanner.inFlow && !scanner.keyAllowed then none
  let scanner := scanner.openBlock scanner.cursor.column .blockSequenceStart none
  let scanner ← scanner.dropCandidate
  return { scanner.emit .blockEntry 1 with keyAllowed := true }

/-- A question mark before a key. -/
def explicitKey (scanner : Scanner) : Option Scanner := do
  if !scanner.inFlow && !scanner.keyAllowed then none
  let scanner := scanner.openBlock scanner.cursor.column .blockMappingStart none
  let scanner ← scanner.dropCandidate
  return { scanner.emit .key 1 with keyAllowed := !scanner.inFlow }

/-- A colon after a key. If a key may have begun, it did. -/
def mappingValue (scanner : Scanner) : Option Scanner :=
  match scanner.candidate with
  | some candidate =>
      let scanner := scanner.place .key (some candidate.slot)
      let scanner :=
        scanner.openBlock candidate.start.column .blockMappingStart (some candidate.slot)
      some { scanner.emit .value 1 with candidate := none, keyAllowed := false }
  | none => do
      if !scanner.inFlow && !scanner.keyAllowed then none
      let scanner := scanner.openBlock scanner.cursor.column .blockMappingStart none
      return { scanner.emit .value 1 with keyAllowed := !scanner.inFlow }

/-- What may follow a name directly. -/
def nameEnds : List Char := ['?', ':', ',', ']', '\x7d', '%', '@', '\x60']

/-- The name after the sign of an anchor or a reference, and the place after it. -/
def anchorName? (cursor : Cursor) : Option (String × Cursor) :=
  let name := cursor.rest.tail.takeWhile isWord
  let cursor := cursor.advance (name.length + 1)
  if !name.isEmpty && (isGap cursor.rest || cursor.rest.head?.any nameEnds.contains) then
    some (String.ofList name, cursor)
  else none

/-- An ampersand and a name for the node that follows. A name may be given again. -/
def anchor (scanner : Scanner) : Option Scanner := do
  let scanner ← scanner.noteCandidate
  let (name, cursor) ← anchorName? scanner.cursor
  let number := scanner.anchors.length
  return { scanner.push (.anchor number) with
    cursor
    keyAllowed := false
    anchors := (name, number) :: scanner.anchors.filter (·.1 ≠ name) }

/-- An asterisk and the name of a node further up. -/
def reference (scanner : Scanner) : Option Scanner := do
  let scanner ← scanner.noteCandidate
  let (name, cursor) ← anchorName? scanner.cursor
  let number ← scanner.anchors.lookup name
  return { scanner.push (.reference number) with cursor, keyAllowed := false }

def nodeTag (scanner : Scanner) : Option Scanner := do
  let scanner ← scanner.noteCandidate
  let (tag, cursor) ← readTag (scanner.handles ++ standardHandles) scanner.cursor
  if !isGap cursor.rest && !(scanner.inFlow && cursor.rest.head? == some ',') then none
  return { scanner.push (.tag tag) with cursor, keyAllowed := false }

/-- A scalar on lines of its own. No key can begin with it, and one may begin after it. -/
def blockScalar (scanner : Scanner) (literal : Bool) : Option Scanner := do
  let scanner ← scanner.dropCandidate
  let scalar ← readBlock literal scanner.indent (scanner.cursor.advance 1)
  let style := if literal then ScalarStyle.literal else .folded
  return { scanner.push (.scalar (String.ofList scalar.text) style) with
    cursor := scalar.cursor
    keyAllowed := true }

def quotedScalar (scanner : Scanner) (double : Bool) : Option Scanner := do
  let scanner ← scanner.noteCandidate
  let cursor := scanner.cursor.advance 1
  let scalar ← readQuoted double (cursor.rest.length + 1) [] cursor
  return { scanner.push (.scalar (String.ofList scalar.text) .quoted) with
    cursor := scalar.cursor
    keyAllowed := false }

def plainScalar (scanner : Scanner) : Option Scanner := do
  let scanner ← scanner.noteCandidate
  let scalar ← readPlain scanner.inFlow (scanner.indent + 1).toNat (scanner.cursor.rest.length + 1)
    [] { cursor := scanner.cursor }
  return { scanner.push (.scalar (String.ofList scalar.text) .plain) with
    cursor := scalar.cursor
    keyAllowed := scalar.afterBreak }

/-- The characters that cannot begin a plain scalar, unless what follows allows it. -/
def indicators : List Char :=
  ['-', '?', ':', ',', '[', ']', '\x7b', '\x7d', '#', '&', '*', '!', '|', '>', '\'', '"', '%', '@',
    '\x60']

def startsPlain (scanner : Scanner) (c : Char) (rest : List Char) : Bool :=
  !(isGap (c :: rest) || indicators.contains c) ||
    c == '-' && !rest.head?.any isBlank ||
    !scanner.inFlow && (c == '?' || c == ':') && !isGap rest

/-- Reads the token that starts here. -/
def token (scanner : Scanner) (c : Char) (rest : List Char) : Option Scanner :=
  if c == '%' && scanner.cursor.column == 0 then scanner.directive
  else if scanner.cursor.atMarker ['-', '-', '-'] then scanner.documentMarker .documentStart
  else if scanner.cursor.atMarker ['.', '.', '.'] then scanner.documentMarker .documentEnd
  else if c == '[' then scanner.openBracket .flowSequenceStart
  else if c == '\x7b' then scanner.openBracket .flowMappingStart
  else if c == ']' then scanner.closeBracket .flowSequenceEnd
  else if c == '\x7d' then scanner.closeBracket .flowMappingEnd
  else if c == ',' then scanner.flowEntry
  else if c == '-' && isGap rest then scanner.blockEntry
  else if c == '?' && (scanner.inFlow || isGap rest) then scanner.explicitKey
  else if c == ':' && (scanner.inFlow || isGap rest) then scanner.mappingValue
  else if c == '*' then scanner.reference
  else if c == '&' then scanner.anchor
  else if c == '!' then scanner.nodeTag
  else if c == '|' && !scanner.inFlow then scanner.blockScalar true
  else if c == '>' && !scanner.inFlow then scanner.blockScalar false
  else if c == '\'' then scanner.quotedScalar false
  else if c == '"' then scanner.quotedScalar true
  else if scanner.startsPlain c rest then scanner.plainScalar
  else none

/-- Reads all tokens. Each takes a character, so the length of the text is fuel enough. -/
def run : Nat → Scanner → Option (List Token)
  | 0, _ => none
  | fuel + 1, scanner => do
      let scanner := scanner.skipSpace (scanner.cursor.rest.length + 1)
      let scanner ← scanner.expireCandidates
      let scanner := scanner.closeBlocks scanner.cursor.column
      match scanner.cursor.rest with
      | [] =>
          let scanner ← (scanner.closeBlocks (-1)).dropCandidate
          return scanner.slots.toList.flatten
      | c :: rest => run fuel (← scanner.token c rest)

end Scanner

/-- The tokens of a text, if it can be cut into tokens. -/
def tokens (text : String) : Option (List Token) :=
  let chars := text.toList
  if chars.all isPrintable then
    Scanner.run (chars.length + 1) { cursor := { rest := chars } }
  else none

end QuditSynth.Yaml
