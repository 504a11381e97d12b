import QuditSynth.Text.Hex
import QuditSynth.Yaml.Cursor

namespace QuditSynth.Yaml

/-! # Tags and directives

A tag says of what kind a node is. It is written in full between angle brackets,
or as a handle, which stands for the start of a tag, and the rest of it. Lines
that start with a percent sign give the version of the format and declare further
handles.
-/

/-- What the handles that are always there stand for. -/
def standardHandles : List (String × String) := [("!", "!"), ("!!", "tag:yaml.org,2002:")]

/-- The signs that a tag may hold. -/
def tagSigns : List Char :=
  [';', '/', '?', ':', '@', '&', '=', '+', '$', '.', '!', '~', '*', '\'', '(', ')']

/-- The characters of tags. Inside angle brackets there are some more. -/
def isTagChar (inFull : Bool) (c : Char) : Bool :=
  isWord c || tagSigns.contains c || inFull && [',', '[', ']'].contains c

def octet? : List Char → Option Nat
  | '%' :: high :: low :: _ => Text.hexValue [high, low]
  | _ => none

/-- How many octets a character takes up whose first octet is given. -/
def octetCount? (first : Nat) : Option Nat :=
  if first < 0x80 then some 1
  else if first / 0x20 = 0x6 then some 2
  else if first / 0x10 = 0xe then some 3
  else if first / 0x8 = 0x1e then some 4
  else none

/-- A character written as octets, and how many characters those take up. -/
def octetChar? (chars : List Char) : Option (Char × Nat) := do
  let first ← octet? chars
  let count ← octetCount? first
  let more ← (List.range (count - 1)).mapM fun index => octet? (chars.drop (3 * index + 3))
  if more.any (· / 0x40 ≠ 0x2) then none
  let lead := if count = 1 then first else first % Nat.pow 2 (7 - count)
  return (Char.ofNat (more.foldl (fun code octet => 0x40 * code + octet % 0x40) lead), 3 * count)

/-- The characters of a tag at the start of a text, and how many characters they take up. -/
def readTagChars (inFull : Bool) : Nat → List Char → Option (List Char × Nat)
  | 0, _ | _, [] => some ([], 0)
  | fuel + 1, c :: rest =>
      if c == '%' then do
        let (decoded, width) ← octetChar? (c :: rest)
        let (more, moreWidth) ← readTagChars inFull fuel ((c :: rest).drop width)
        return (decoded :: more, width + moreWidth)
      else if isTagChar inFull c then do
        let (more, moreWidth) ← readTagChars inFull fuel rest
        return (c :: more, moreWidth + 1)
      else some ([], 0)

/-- A word after an exclamation mark, with a second such mark if there is one. -/
def readHandle : List Char → Option (List Char)
  | '!' :: rest =>
      let word := rest.takeWhile isWord
      some ('!' :: word ++ if (rest.drop word.length).head? == some '!' then ['!'] else [])
  | _ => none

/-- Whether a handle is closed by an exclamation mark of its own. -/
def isClosed (handle : List Char) : Bool := 1 < handle.length && handle.getLast? == some '!'

/-- A tag in full, and the place after it. -/
def readTag (handles : List (String × String)) (cursor : Cursor) : Option (String × Cursor) :=
  match cursor.rest with
  | '!' :: '<' :: rest => do
      let (text, width) ← readTagChars true rest.length rest
      if text.isEmpty || (rest.drop width).head? ≠ some '>' then none
      return (String.ofList text, cursor.advance (width + 3))
  | chars => do
      let handle ← readHandle chars
      let rest := chars.drop handle.length
      let (text, width) ← readTagChars false rest.length rest
      let after := cursor.advance (handle.length + width)
      if isClosed handle then
        if text.isEmpty then none
        return ((← handles.lookup (String.ofList handle)) ++ String.ofList text, after)
      else if handle.length = 1 && text.isEmpty then return ("!", after)
      else return ((← handles.lookup "!") ++ String.ofList (handle.tail ++ text), after)

/-! ## Directives -/

inductive Directive
  | version (major minor : Nat)
  /-- A handle and the start of a tag that it stands for. -/
  | handle (name start : String)

/-- The longest number in a version. -/
def versionDigits : Nat := 9

/-- A number in a version, and the place after it. -/
def readVersionNumber (cursor : Cursor) : Option (Nat × Cursor) := do
  let digits := cursor.rest.takeWhile Char.isDigit
  if digits.isEmpty || versionDigits < digits.length then none
  return (← Text.radixValue 10 digits, cursor.advance digits.length)

/-- A directive from after its percent sign on, and the start of the next line. -/
def readDirective (cursor : Cursor) : Option (Directive × Cursor) := do
  let name := cursor.rest.takeWhile isWord
  let cursor := cursor.advance name.length
  if !isGap cursor.rest then none
  let cursor := cursor.skipWhile isBlank
  match String.ofList name with
  | "YAML" => do
      let (major, cursor) ← readVersionNumber cursor
      if cursor.rest.head? ≠ some '.' then none
      let (minor, cursor) ← readVersionNumber (cursor.advance 1)
      return (.version major minor, ← cursor.endLine?)
  | "TAG" => do
      let handle ← readHandle cursor.rest
      let cursor := cursor.advance handle.length
      if !(handle.length = 1 || isClosed handle) || !cursor.rest.head?.any isBlank then none
      let cursor := cursor.skipWhile isBlank
      let (start, width) ← readTagChars true cursor.rest.length cursor.rest
      let cursor := cursor.advance width
      if start.isEmpty || !isGap cursor.rest then none
      return (.handle (String.ofList handle) (String.ofList start), ← cursor.endLine?)
  | _ => none

end QuditSynth.Yaml
