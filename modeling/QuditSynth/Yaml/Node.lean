import QuditSynth.Yaml.Token

namespace QuditSynth.Yaml

/-! # Trees of YAML texts

The tree of a text with a single document. What is missing where a value is
expected reads as a plain scalar without characters. The tag of a list or a
mapping says nothing that is needed here, and is left aside.
-/

inductive Node
  | scalar (text : String) (style : ScalarStyle) (tag : Option String)
  | sequence (items : List Node)
  | mapping (pairs : List (Node × Node))
  /-- A node that references can stand for. -/
  | anchored (number : Nat) (node : Node)
  | reference (number : Nat)
deriving Inhabited

/-- What may stand before a node: an anchor and a tag, in either order. -/
structure Properties where
  anchor : Option Nat := none
  tag : Option String := none

namespace Properties

/-- The properties at the start of some tokens, and the tokens after them. -/
def read : List Token → Properties × List Token
  | .anchor number :: .tag tag :: rest | .tag tag :: .anchor number :: rest =>
      ({ anchor := some number, tag := some tag }, rest)
  | .anchor number :: rest => ({ anchor := some number }, rest)
  | .tag tag :: rest => ({ tag := some tag }, rest)
  | tokens => ({}, tokens)

def isEmpty (properties : Properties) : Bool :=
  properties.anchor.isNone && properties.tag.isNone

/-- Puts its anchor on a node. -/
def attach (properties : Properties) (node : Node) : Node :=
  properties.anchor.elim node (.anchored · node)

end Properties

namespace Node

/-- What stands for a missing value. -/
def missing : Node := .scalar "" .plain none

/-- Whether the tokens go on with one of those given. -/
def startsWith (followers : List Token) (tokens : List Token) : Bool :=
  tokens.head?.any followers.contains

mutual

/-- The node some tokens start with. Blocks are not allowed inside brackets; a list under a key
needs no indentation of its own. -/
def node (isBlock isValue : Bool) : Nat → List Token → Option (Node × List Token)
  | 0, _ => none
  | fuel + 1, tokens =>
      match tokens with
      | .reference number :: rest => some (.reference number, rest)
      | tokens => do
          let (properties, rest) := Properties.read tokens
          let (node, rest) ← content properties isBlock isValue fuel rest
          return (properties.attach node, rest)

/-- What follows the properties of a node. After properties it may be missing. -/
def content (properties : Properties) (isBlock isValue : Bool) :
    Nat → List Token → Option (Node × List Token)
  | 0, _ => none
  | fuel + 1, tokens =>
      match tokens with
      | .scalar text style :: rest => some (.scalar text style properties.tag, rest)
      | .flowSequenceStart :: rest => do
          let (items, rest) ← flowItems true fuel rest
          return (.sequence items, rest)
      | .flowMappingStart :: rest => do
          let (pairs, rest) ← flowPairs true fuel rest
          return (.mapping pairs, rest)
      | tokens =>
          match isBlock, isValue, tokens with
          | _, true, .blockEntry :: _ => do
              let (items, rest) ← openItems fuel tokens
              return (.sequence items, rest)
          | true, _, .blockSequenceStart :: rest => do
              let (items, rest) ← blockItems fuel rest
              return (.sequence items, rest)
          | true, _, .blockMappingStart :: rest => do
              let (pairs, rest) ← blockPairs fuel rest
              return (.mapping pairs, rest)
          | _, _, tokens =>
              if properties.isEmpty then none else some (.scalar "" .plain properties.tag, tokens)

/-- A node, unless what follows shows that it is missing. -/
def nodeOr (followers : List Token) (isBlock isValue : Bool) :
    Nat → List Token → Option (Node × List Token)
  | 0, _ => none
  | fuel + 1, tokens =>
      if startsWith followers tokens then some (missing, tokens)
      else node isBlock isValue fuel tokens

/-- A value after its colon, or nothing. -/
def valueOr (followers : List Token) (isBlock isValue : Bool) :
    Nat → List Token → Option (Node × List Token)
  | 0, _ => none
  | fuel + 1, tokens =>
      match tokens with
      | .value :: rest => nodeOr followers isBlock isValue fuel rest
      | tokens => some (missing, tokens)

/-- Items up to the end of their block. -/
def blockItems : Nat → List Token → Option (List Node × List Token)
  | 0, _ => none
  | fuel + 1, tokens =>
      match tokens with
      | .blockEnd :: rest => some ([], rest)
      | .blockEntry :: rest => do
          let (item, rest) ← nodeOr [.blockEntry, .blockEnd] true false fuel rest
          let (items, rest) ← blockItems fuel rest
          return (item :: items, rest)
      | _ => none

/-- Items of a list without indentation of its own, up to something else. -/
def openItems : Nat → List Token → Option (List Node × List Token)
  | 0, _ => none
  | fuel + 1, tokens =>
      match tokens with
      | .blockEntry :: rest => do
          let (item, rest) ← nodeOr [.blockEntry, .key, .value, .blockEnd] true false fuel rest
          let (items, rest) ← openItems fuel rest
          return (item :: items, rest)
      | tokens => some ([], tokens)

/-- Pairs up to the end of their block. -/
def blockPairs : Nat → List Token → Option (List (Node × Node) × List Token)
  | 0, _ => none
  | fuel + 1, tokens =>
      match tokens with
      | .blockEnd :: rest => some ([], rest)
      | .key :: rest => do
          let (key, rest) ← nodeOr [.key, .value, .blockEnd] true true fuel rest
          let (value, rest) ← valueOr [.key, .value, .blockEnd] true true fuel rest
          let (pairs, rest) ← blockPairs fuel rest
          return ((key, value) :: pairs, rest)
      | _ => none

/-- Items up to the closing bracket, with commas between them. A key that is missing takes the
token after it with it. -/
def flowItems (isFirst : Bool) : Nat → List Token → Option (List Node × List Token)
  | 0, _ => none
  | fuel + 1, tokens =>
      match tokens with
      | .flowSequenceEnd :: rest => some ([], rest)
      | tokens => do
          let tokens ← match isFirst, tokens with
            | true, tokens => some tokens
            | false, .flowEntry :: rest => some rest
            | false, _ => none
          match tokens with
          | .flowSequenceEnd :: rest => return ([], rest)
          | .key :: rest =>
              let (key, rest) ←
                if startsWith [.value, .flowEntry, .flowSequenceEnd] rest then
                  some (missing, rest.tail)
                else node false false fuel rest
              let (value, rest) ← valueOr [.flowEntry, .flowSequenceEnd] false false fuel rest
              let (items, rest) ← flowItems false fuel rest
              return (.mapping [(key, value)] :: items, rest)
          | tokens =>
              let (item, rest) ← node false false fuel tokens
              let (items, rest) ← flowItems false fuel rest
              return (item :: items, rest)

/-- Pairs up to the closing brace, with commas between them. -/
def flowPairs (isFirst : Bool) : Nat → List Token → Option (List (Node × Node) × List Token)
  | 0, _ => none
  | fuel + 1, tokens =>
      match tokens with
      | .flowMappingEnd :: rest => some ([], rest)
      | tokens => do
          let tokens ← match isFirst, tokens with
            | true, tokens => some tokens
            | false, .flowEntry :: rest => some rest
            | false, _ => none
          match tokens with
          | .flowMappingEnd :: rest => return ([], rest)
          | .key :: rest =>
              let (key, rest) ← nodeOr [.value, .flowEntry, .flowMappingEnd] false false fuel rest
              let (value, rest) ← valueOr [.flowEntry, .flowMappingEnd] false false fuel rest
              let (pairs, rest) ← flowPairs false fuel rest
              return ((key, value) :: pairs, rest)
          | tokens =>
              let (key, rest) ← node false false fuel tokens
              let (pairs, rest) ← flowPairs false fuel rest
              return ((key, missing) :: pairs, rest)

end

/-- The tree of the only document. Directives need a mark where the document starts. Fuel for four
calls on each token is enough. -/
def ofTokens? (tokens : List Token) : Option Node := do
  let fuel := 4 * tokens.length + 4
  let (root, rest) ← match tokens, tokens.dropWhile (· = .directive) with
    | [], _ => some (missing, [])
    | _, .documentStart :: rest =>
        if rest.isEmpty then some (missing, [])
        else nodeOr [.directive, .documentStart, .documentEnd] true false fuel rest
    | tokens, _ => node true false fuel tokens
  if (rest.dropWhile (· = .documentEnd)).isEmpty then some root else none

/-! ## References -/

mutual

/-- The nodes that have an anchor, by its number, in the order of the text. -/
def anchoredNodes : Node → List (Nat × Node)
  | .anchored number node => (number, node) :: anchoredNodes node
  | .sequence items => anchoredItems items
  | .mapping pairs => anchoredPairs pairs
  | .scalar .. | .reference _ => []

def anchoredItems : List Node → List (Nat × Node)
  | [] => []
  | item :: items => anchoredNodes item ++ anchoredItems items

def anchoredPairs : List (Node × Node) → List (Nat × Node)
  | [] => []
  | (key, value) :: pairs => anchoredNodes key ++ anchoredNodes value ++ anchoredPairs pairs

end

/-- The node itself, in place of its anchor or of a reference. Of several nodes with one number the
last counts, for references before it too. -/
def follow (root : Node) : Node → Node
  | .anchored _ node => node
  | .reference number => (root.anchoredNodes.reverse.lookup number).getD missing
  | node => node

end Node

/-- Reads a text that holds a single document. -/
def read (text : String) : Option Node := do Node.ofTokens? (← tokens text)

namespace Node

/-- The pairs of the mapping that a document is, whose keys are scalars. A missing mapping has
none. -/
def entries (root : Node) : Option (List (String × Node)) :=
  match root.follow root with
  | .mapping pairs => pairs.mapM fun (key, value) =>
      match root.follow key with
      | .scalar name _ _ => some (name, root.follow value)
      | _ => none
  | .scalar "" .plain _ => some []
  | _ => none

/-! ## Values of scalars -/

/-- The text of a scalar that may be a value of a kind: one without quotes, or a literal one whose
tag names the kind. -/
def valueText? (kind : String) : Node → Option String
  | .scalar text .plain _ => some text
  | .scalar text .literal (some tag) => if tag = "tag:yaml.org,2002:" ++ kind then some text else none
  | _ => none

def asBool (node : Node) : Option Bool := do
  match ← node.valueText? "bool" with
  | "true" | "True" | "TRUE" => some true
  | "false" | "False" | "FALSE" => some false
  | _ => none

/-- What a tag of the text itself names, after its exclamation mark. -/
def localName? (tag : String) : Option String :=
  match tag.toList with
  | ['!'] => some "!"
  | '!' :: name => some (String.ofList name)
  | _ => none

/-- One name out of several: the text of a scalar, or the tag of one that holds no value. -/
def asName : Node → Option String
  | .scalar text style tag =>
      match tag >>= localName? with
      | none => some text
      | some name =>
          if style = .plain ∧ text ∈ ["", "~", "null", "Null", "NULL"] then some name else none
  | _ => none

end Node
end QuditSynth.Yaml
