import QuditSynth.Decimal.Text
import QuditSynth.Document

namespace QuditSynth.Document

/-! # Writing documents

A document is written on one line, or spread out with two blanks of indentation
for each level.
-/

def hexDigit (n : Nat) : Char := (Nat.digitChar n)

/-- A character inside quotes. Control characters, quotes and backslashes are escaped. -/
def escape (c : Char) : List Char :=
  match c with
  | '"' => ['\\', '"']
  | '\\' => ['\\', '\\']
  | '\x08' => ['\\', 'b']
  | '\x0c' => ['\\', 'f']
  | '\n' => ['\\', 'n']
  | '\r' => ['\\', 'r']
  | '\t' => ['\\', 't']
  | c =>
      if c.toNat < 0x20 then
        ['\\', 'u', '0', '0', hexDigit (c.toNat / 16), hexDigit (c.toNat % 16)]
      else [c]

def quoted (text : String) : String :=
  "\"" ++ String.ofList (text.toList.flatMap escape) ++ "\""

/-- Where lines break, and what stands between a name and its value. -/
structure Layout where
  /-- The line break before a part at a depth. -/
  lineBreak : Nat → String
  colon : String

def compact : Layout := ⟨fun _ => "", ":"⟩

def spread : Layout := ⟨fun depth => "\n" ++ "".pushn ' ' (2 * depth), ": "⟩

/-- Parts between brackets, each on a line of its own. -/
def Layout.enclose (layout : Layout) (depth : Nat) (opening closing : String) :
    List String → String
  | [] => opening ++ closing
  | parts =>
      let lineBreak := layout.lineBreak (depth + 1)
      opening ++ lineBreak ++ ("," ++ lineBreak).intercalate parts ++ layout.lineBreak depth ++
        closing

mutual

def render (layout : Layout) (depth : Nat) : Document → String
  | .null | .unreadable => "null"
  | .bool value => if value then "true" else "false"
  | .whole value => toString value
  | .real value => documentStyle.text value
  | .text value => quoted value
  | .list items => layout.enclose depth "[" "]" (renderItems layout (depth + 1) items)
  | .record fields =>
      layout.enclose depth "\x7b" "\x7d" (renderFields layout (depth + 1) fields)

def renderItems (layout : Layout) (depth : Nat) : List Document → List String
  | [] => []
  | item :: rest => render layout depth item :: renderItems layout depth rest

def renderFields (layout : Layout) (depth : Nat) : List (Option String × Document) → List String
  | [] => []
  | (name, value) :: rest =>
      (quoted (name.getD "") ++ layout.colon ++ render layout depth value) ::
        renderFields layout depth rest

end

/-- The document on one line. -/
def line (document : Document) : String := document.render compact 0

/-- The document over several lines. -/
def lines (document : Document) : String := document.render spread 0

end QuditSynth.Document
