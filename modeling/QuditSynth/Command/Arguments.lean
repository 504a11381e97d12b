import QuditSynth.Command.Options

namespace QuditSynth

/-! # Arguments of the commands

An option takes its value from the same argument or from the next one. What starts
with a hyphen is not a value, except for a number after an option that allows
negative numbers. No option may be given twice, and nothing else may be given.
-/

/-- An option that takes a value. -/
structure OptionRule where
  name : String
  short : Option Char := none
  /-- Whether a negative number may follow. -/
  allowsNegative : Bool := false
  accepts : String → Bool := fun _ => true

/-- Why arguments are not a command. -/
inductive Refusal
  /-- They are not understood. -/
  | misuse
  /-- They ask for help. -/
  | help
  /-- They ask for the version. -/
  | version
deriving Repr, DecidableEq

/-- What an argument looks like. -/
inductive Shape
  | endOfOptions
  | long (name : String) (value : Option String)
  | short (letters : List Char)
  | other
deriving Repr, DecidableEq

namespace Shape

def ofChars : List Char → Shape
  | ['-', '-'] => .endOfOptions
  | '-' :: '-' :: rest =>
      let name := rest.takeWhile (· ≠ '=')
      match rest.drop name.length with
      | _ :: value => .long (String.ofList name) (some (String.ofList value))
      | [] => .long (String.ofList name) none
  | '-' :: letter :: rest => .short (letter :: rest)
  | _ => .other

def ofArgument (argument : String) : Shape := ofChars argument.toList

end Shape

/-- Whether letters after a hyphen are the digits of a number: digits, a point after some of them,
and an exponent without a sign. -/
def isNumber (letters : List Char) : Bool :=
  let isDigit (c : Char) : Bool := (Numeral.digit? c).isSome
  let afterWhole := letters.dropWhile isDigit
  let afterPoint := match afterWhole with
    | '.' :: rest => rest.dropWhile isDigit
    | rest => rest
  match letters, afterPoint with
  | '.' :: _, _ | 'e' :: _, _ | 'E' :: _, _ => false
  | _, [] => true
  | _, 'e' :: exponent | _, 'E' :: exponent => !exponent.isEmpty && exponent.all isDigit
  | _, _ => false

/-- The values of options, by name. -/
abbrev Values := List (String × String)

/-- Adds a value to an option that has none yet. -/
def addValue (rule : OptionRule) (value : String) (values : Values) : Except Refusal Values :=
  if (values.lookup rule.name).isSome || !rule.accepts value then .error .misuse
  else .ok ((rule.name, value) :: values)

/-- Letters after one hyphen: flags, and at the end possibly an option with its value. The option
is returned if its value is still to come. -/
def readLetters (rules : List OptionRule) (values : Values) :
    List Char → Except Refusal (Option OptionRule × Values)
  | [] => .ok (none, values)
  | 'v' :: rest => readLetters rules values rest
  | 'h' :: _ => .error .help
  | letter :: rest =>
      match rules.find? (·.short = some letter), rest with
      | none, _ => .error .misuse
      | some rule, [] => .ok (some rule, values)
      | some rule, '=' :: value | some rule, value => do
          return (none, ← addValue rule (String.ofList value) values)

/-- What follows two hyphens. -/
def readLong (rules : List OptionRule) (values : Values) (name : String) (value : Option String) :
    Except Refusal (Option OptionRule × Values) :=
  match name, value with
  | "verbose", none => .ok (none, values)
  | "help", none => .error .help
  | name, value =>
      match rules.find? (·.name = name), value with
      | none, _ => .error .misuse
      | some rule, none => .ok (some rule, values)
      | some rule, some value => do return (none, ← addValue rule value values)

/-- The values of all options. An option may be waiting for its value. -/
def readValues (rules : List OptionRule) :
    Option OptionRule → Values → List String → Except Refusal Values
  | none, values, [] => .ok values
  | some _, _, [] => .error .misuse
  | some rule, values, argument :: rest =>
      match Shape.ofArgument argument with
      | .other => do readValues rules none (← addValue rule argument values) rest
      | .short letters =>
          if rule.allowsNegative && isNumber letters then do
            readValues rules none (← addValue rule argument values) rest
          else .error .misuse
      | _ => .error .misuse
  | none, values, argument :: rest =>
      match Shape.ofArgument argument with
      | .endOfOptions => if rest.isEmpty then .ok values else .error .misuse
      | .long name value => do
          let (pending, values) ← readLong rules values name value
          readValues rules pending values rest
      | .short letters => do
          let (pending, values) ← readLetters rules values letters
          readValues rules pending values rest
      | .other => .error .misuse

def isReal (text : String) : Bool := (Numeral.readFloat text).isSome

def isSize (text : String) : Bool := (readSize text).isSome

def isFamily (text : String) : Bool := (readFamily text).isSome

def required {α : Type} : Option α → Except Refusal α
  | some value => .ok value
  | none => .error .misuse

def compileRules : List OptionRule :=
  [{ name := "input", short := 'i' }, { name := "output", short := 'o' },
    { name := "config", short := 'c' }, { name := "family", accepts := isFamily },
    { name := "tolerance", accepts := isReal }, { name := "max-layers", accepts := isSize }]

def compileOptions (arguments : List String) : Except Refusal CompileOptions := do
  let values ← readValues compileRules none [] arguments
  return {
    input := ← required (values.lookup "input")
    output := values.lookup "output"
    config := values.lookup "config"
    family := (values.lookup "family").bind readFamily
    tolerance := (values.lookup "tolerance").bind Numeral.readFloat
    maxLayers := (values.lookup "max-layers").bind readSize }

def decomposeRules : List OptionRule :=
  [{ name := "generator", short := 'g', accepts := fun text => (Pulses.ofName? text).isSome },
    { name := "dims", short := 'd' },
    { name := "angle", short := 'a', allowsNegative := true, accepts := isReal },
    { name := "phase", short := 'p', allowsNegative := true, accepts := isReal },
    { name := "level", short := 'l', accepts := isSize }]

def decomposeOptions (arguments : List String) : Except Refusal DecomposeOptions := do
  let values ← readValues decomposeRules none [] arguments
  return {
    pulses := ← required ((values.lookup "generator").bind Pulses.ofName?)
    dims := ← required (values.lookup "dims")
    angle := ← required ((values.lookup "angle").bind Numeral.readFloat)
    phase := ((values.lookup "phase").bind Numeral.readFloat).getD 0
    level := ((values.lookup "level").bind readSize).getD 0 }

/-- Flags before the name of a command. -/
def readFlags : List Char → Except Refusal Unit
  | [] => .ok ()
  | 'v' :: rest => readFlags rest
  | 'h' :: _ => .error .help
  | 'V' :: _ => .error .version
  | _ => .error .misuse

namespace Command

/-- The names of the commands. -/
def names : List String := ["compile", "decompose", "version"]

def ofArguments : List String → Except Refusal Command
  | [] => .error .misuse
  | "compile" :: rest => do return .compile (← compileOptions rest)
  | "decompose" :: rest => do return .decompose (← decomposeOptions rest)
  | "version" :: rest => do
      let _ ← readValues [] none [] rest
      return .version
  | ["help"] => .error .help
  | ["help", name] => .error (if name = "help" ∨ name ∈ names then .help else .misuse)
  | argument :: rest =>
      match Shape.ofArgument argument with
      | .long "verbose" none => ofArguments rest
      | .long "help" none => .error .help
      | .long "version" none => .error .version
      | .short letters => do
          readFlags letters
          ofArguments rest
      | _ => .error .misuse

end Command
end QuditSynth
