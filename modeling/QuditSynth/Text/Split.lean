namespace QuditSynth.Text

/-! # Splitting texts -/

/-- The parts between the occurrences of a separator. -/
def splitChars (separator : Char) : List Char → List (List Char)
  | [] => [[]]
  | c :: rest =>
      match splitChars separator rest with
      | part :: parts => if c = separator then [] :: part :: parts else (c :: part) :: parts
      | [] => [[c]]

def split (separator : Char) (text : String) : List String :=
  (splitChars separator text.toList).map String.ofList

/-- Joins parts with a separator between them. -/
def join (separator : String) (parts : List String) : String := separator.intercalate parts

end QuditSynth.Text
