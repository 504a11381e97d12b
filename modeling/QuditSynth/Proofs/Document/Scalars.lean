import Mathlib.Algebra.Ring.Int.Defs
import Mathlib.Data.List.TakeDrop
import Mathlib.Data.List.TakeWhile
import QuditSynth.Document.Printer
import QuditSynth.Document.Reader

namespace QuditSynth.Document

/-! # Strings and numbers in texts

The reader undoes the escapes of a string and the digits of a whole number. A
number ends where nothing that follows could continue it.
-/

/-! ## Strings -/

/-- The code of a control character, written with four digits. -/
theorem hexValue_control {code : Nat} (small : code < 0x20) :
    Text.hexValue ['0', '0', hexDigit (code / 16), hexDigit (code % 16)] = some code := by
  revert code
  decide

theorem ofCode_toNat (c : Char) (small : c.toNat < 0x20) : Piece.ofCode c.toNat = .char c := by
  have low : ¬ (Piece.firstHigh ≤ c.toNat ∧ c.toNat < Piece.afterLow) := by
    unfold Piece.firstHigh
    omega
  rw [Piece.ofCode, if_neg low, Char.ofNat_toNat]

/-- One character of a string. -/
theorem readPieces_escape (done : List Piece) (c : Char) (rest : List Char) :
    readPieces done (escape c ++ rest) = readPieces (.char c :: done) rest := by
  unfold escape
  split
  case h_8 plain1 plain2 plain3 plain4 plain5 plain6 plain7 =>
    split
    · next small =>
      simp only [List.cons_append, List.nil_append, readPieces, hexValue_control small]
      exact congrArg (readPieces · rest) (congrArg (· :: done) (ofCode_toNat c small))
    · next large =>
      rw [List.singleton_append, readPieces]
      · exact if_neg (not_or.mpr ⟨large, plain2⟩)
      all_goals simp_all
  all_goals rfl

theorem readPieces_escapes (done : List Piece) (text rest : List Char) :
    readPieces done (text.flatMap escape ++ '"' :: rest) =
      some (done.reverse ++ text.map Piece.char, rest) := by
  induction text generalizing done with
  | nil => simp [readPieces]
  | cons c text ih =>
      rw [List.flatMap_cons, List.append_assoc, readPieces_escape, ih]
      simp

theorem join_chars (text : List Char) : Piece.join (text.map Piece.char) = some text := by
  induction text with
  | nil => rfl
  | cons c text ih => simp [Piece.join, ih]

theorem toList_quoted (text : String) (rest : List Char) :
    (quoted text).toList ++ rest = '"' :: (text.toList.flatMap escape ++ '"' :: rest) := by
  simp [quoted]

/-- The pieces of a quoted string make up the string. -/
theorem readPieces_quoted (text : String) (rest : List Char) :
    ∃ pieces, readPieces [] (text.toList.flatMap escape ++ '"' :: rest) = some (pieces, rest) ∧
      Piece.text? pieces = some text := by
  refine ⟨_, readPieces_escapes [] text.toList rest, ?_⟩
  rw [Piece.text?, List.reverse_nil, List.nil_append, join_chars, Option.map_some,
    String.ofList_toList]

/-! ## Numbers -/

/-- No number that stands before the characters goes on with them. -/
def Delimited (chars : List Char) : Prop :=
  ∀ c ∈ chars.head?, Numeral.digit? c = none ∧ c ≠ '.' ∧ c ≠ 'e' ∧ c ≠ 'E'

theorem delimited_nil : Delimited [] := by simp [Delimited]

theorem delimited_cons {c : Char} (rest : List Char)
    (stop : Numeral.digit? c = none ∧ c ≠ '.' ∧ c ≠ 'e' ∧ c ≠ 'E') : Delimited (c :: rest) := by
  intro first same
  cases same
  exact stop

theorem takeDigits_append {chars digits left rest : List Char} (delimited : Delimited rest)
    (taken : Numeral.takeDigits chars = (digits, left)) :
    Numeral.takeDigits (chars ++ rest) = (digits, left ++ rest) := by
  rw [Numeral.takeDigits, List.span_eq_takeWhile_dropWhile] at taken ⊢
  cases taken
  induction chars with
  | nil =>
      cases rest with
      | nil => rfl
      | cons c rest => simp [(delimited c rfl).1]
  | cons c chars ih =>
      cases digit : (Numeral.digit? c).isSome with
      | true => simpa [digit] using ih
      | false => simp [digit]

namespace Literal

variable {chars left rest : List Char}

theorem readFraction_append {digits : List Char} (delimited : Delimited rest)
    (accepted : readFraction chars = some (digits, left)) :
    readFraction (chars ++ rest) = some (digits, left ++ rest) := by
  cases chars with
  | nil =>
      cases accepted
      cases rest with
      | nil => rfl
      | cons c rest =>
          obtain ⟨_, noPoint, _, _⟩ := delimited c rfl
          simp [readFraction, noPoint]
  | cons c chars =>
      by_cases point : c = '.'
      · subst point
        rcases splits : Numeral.takeDigits chars with ⟨taken, after⟩
        have more := takeDigits_append delimited splits
        cases taken with
        | nil => simp [readFraction, splits] at accepted
        | cons digit taken => simpa [readFraction, splits, more] using accepted
      · have unread : ∀ after, readFraction (c :: after) = some ([], c :: after) := by
          simp [readFraction, point]
        rw [unread] at accepted
        cases accepted
        exact unread (chars ++ rest)

theorem head_of_takeDigits {digits : List Char} (taken : Numeral.takeDigits chars = (digits, left))
    (some : digits ≠ []) : ∃ c tail, chars = c :: tail ∧ (Numeral.digit? c).isSome = true := by
  rw [Numeral.takeDigits, List.span_eq_takeWhile_dropWhile] at taken
  cases taken
  cases chars with
  | nil => exact absurd rfl some
  | cons c tail =>
      refine ⟨c, tail, rfl, ?_⟩
      by_contra other
      exact some (List.takeWhile_cons_of_neg other)

/-- An exponent has a mark, a sign or none, and digits. -/
theorem readExponent_eq_some_iff {exponent : Option Int} :
    readExponent chars = some (exponent, left) ↔
      exponent = none ∧ left = chars ∧ (∀ mark ∈ chars.head?, mark ≠ 'e' ∧ mark ≠ 'E') ∨
      ∃ mark sign after digits, chars = mark :: (sign ++ after) ∧ (mark = 'e' ∨ mark = 'E') ∧
        (sign = ['-'] ∨ sign = ['+'] ∨ sign = []) ∧
        Numeral.takeDigits after = (digits, left) ∧ digits ≠ [] ∧
        exponent = some (if sign = ['-'] then -(Numeral.value digits : Int)
          else Numeral.value digits) := by
  cases chars with
  | nil => simp [readExponent, eq_comm]
  | cons mark chars =>
      by_cases marked : mark = 'e' ∨ mark = 'E'
      · have noneExcluded : ¬ ∀ other ∈ (mark :: chars).head?, other ≠ 'e' ∧ other ≠ 'E' := by
          intro excluded
          obtain ⟨small, capital⟩ := excluded mark rfl
          exact marked.elim small capital
        simp only [noneExcluded, and_false, false_or]
        constructor
        · intro accepted
          unfold readExponent at accepted
          replace accepted := (if_pos marked).symm.trans accepted
          split at accepted
          next negative after signed =>
          obtain ⟨sign, spelled, signs, negativeIs⟩ : ∃ sign, chars = sign ++ after ∧
              (sign = ['-'] ∨ sign = ['+'] ∨ sign = []) ∧ (negative = true ↔ sign = ['-']) := by
            split at signed <;> cases signed
            · exact ⟨['-'], by simp⟩
            · exact ⟨['+'], by simp⟩
            · exact ⟨[], by simp⟩
          split at accepted
          · cases accepted
          · next some taken =>
            cases accepted
            refine ⟨mark, sign, after, _, by rw [spelled], marked, signs, taken, some, ?_⟩
            simp only [negativeIs]
        · rintro ⟨_, sign, after, digits, spelled, _, signs, taken, some, rfl⟩
          cases spelled
          obtain ⟨c, tail, rfl, digit⟩ := head_of_takeDigits taken some
          obtain ⟨first, others, rfl⟩ := List.exists_cons_of_ne_nil some
          rcases signs with rfl | rfl | rfl
          · simp [readExponent, marked, taken]
          · simp [readExponent, marked, taken]
          · have noMinus : c ≠ '-' := by rintro rfl; cases digit
            have noPlus : c ≠ '+' := by rintro rfl; cases digit
            simp [readExponent, marked, noMinus, noPlus, taken]
      · have unread : readExponent (mark :: chars) = some (none, mark :: chars) := by
          unfold readExponent
          exact if_neg marked
        rw [unread]
        constructor
        · intro accepted
          cases accepted
          exact .inl ⟨rfl, rfl, by simpa [not_or] using marked⟩
        · rintro (⟨rfl, rfl, _⟩ | ⟨_, _, _, _, spelled, excluded, _⟩)
          · rfl
          · cases spelled
            exact absurd excluded marked

theorem readExponent_append {exponent : Option Int} (delimited : Delimited rest)
    (accepted : readExponent chars = some (exponent, left)) :
    readExponent (chars ++ rest) = some (exponent, left ++ rest) := by
  rw [readExponent_eq_some_iff] at accepted ⊢
  rcases accepted with ⟨rfl, rfl, unmarked⟩ | ⟨mark, sign, after, digits, rfl, marked, signs, taken,
    some, rfl⟩
  · refine .inl ⟨rfl, rfl, ?_⟩
    cases left with
    | nil => exact fun mark first => (delimited mark first).2.2
    | cons mark others => exact unmarked
  · exact .inr ⟨mark, sign, after ++ rest, digits, by simp, marked, signs,
      takeDigits_append delimited taken, some, rfl⟩

/-- What stands before the digits of a number. -/
def sign (negative : Bool) : List Char := if negative then ['-'] else []

/-- The parts of a number, one after the other. -/
theorem read_eq_some_iff {literal : Literal} : read chars = some (literal, left) ↔
    ∃ unsigned afterWhole afterFraction exponent,
      chars = sign literal.negative ++ unsigned ∧
      Numeral.takeDigits unsigned = (literal.whole, afterWhole) ∧
      literal.whole ≠ [] ∧ (∀ digit digits, literal.whole ≠ '0' :: digit :: digits) ∧
      readFraction afterWhole = some (literal.fraction, afterFraction) ∧
      readExponent afterFraction = some (exponent, left) ∧
      literal.exponent = exponent.getD 0 ∧
      literal.isWhole = (literal.fraction.isEmpty && exponent.isNone) := by
  constructor
  · intro accepted
    unfold read at accepted
    split at accepted
    next negative unsigned signed =>
    have spelled : chars = sign negative ++ unsigned := by
      split at signed <;> (cases signed; rfl)
    rcases splits : Numeral.takeDigits unsigned with ⟨taken, after⟩
    simp only [splits] at accepted
    split at accepted
    · cases accepted
    · cases accepted
    · next some noZero =>
      simp only [Option.bind_eq_bind, Option.bind_eq_some_iff] at accepted
      obtain ⟨⟨digits, afterFraction⟩, fraction, ⟨exponent, _⟩, power, made⟩ := accepted
      cases made
      exact ⟨unsigned, after, afterFraction, exponent, spelled, splits, some, noZero, fraction,
        power, rfl, rfl⟩
  · rintro ⟨unsigned, afterWhole, afterFraction, exponent, rfl, splits, some, noZero, fraction,
      power, exponentIs, wholeIs⟩
    obtain ⟨negative, whole, digits, _, _⟩ := literal
    dsimp only at *
    subst exponentIs wholeIs
    cases negative with
    | true => simp [sign, read, splits, fraction, power]
    | false =>
      obtain ⟨c, tail, rfl, digit⟩ := head_of_takeDigits splits some
      have noSign : c ≠ '-' := by rintro rfl; cases digit
      simp [sign, read, noSign, splits, fraction, power]

/-- What follows a number does not change it. -/
theorem read_append {literal : Literal} (delimited : Delimited rest)
    (accepted : read chars = some (literal, left)) :
    read (chars ++ rest) = some (literal, left ++ rest) := by
  obtain ⟨unsigned, afterWhole, afterFraction, exponent, rfl, splits, some, noZero, fraction,
    power, parts⟩ := read_eq_some_iff.mp accepted
  exact read_eq_some_iff.mpr ⟨unsigned ++ rest, afterWhole ++ rest, afterFraction ++ rest, exponent,
    List.append_assoc .., takeDigits_append delimited splits, some, noZero,
    readFraction_append delimited fraction, readExponent_append delimited power, parts⟩

/-! ### Whole numbers -/

theorem digit?_isSome_of_isDigit {c : Char} (digit : c.isDigit = true) :
    (Numeral.digit? c).isSome = true := by
  simp only [Char.isDigit, Bool.and_eq_true, decide_eq_true_eq] at digit
  have within : '0' ≤ c ∧ c ≤ '9' := digit
  simp [Numeral.digit?, within]

theorem takeDigits_toDigits (n : Nat) :
    Numeral.takeDigits (Nat.toDigits 10 n) = (Nat.toDigits 10 n, []) := by
  have digits : ∀ c ∈ Nat.toDigits 10 n, (Numeral.digit? c).isSome = true := fun c member =>
    digit?_isSome_of_isDigit (Nat.isDigit_of_mem_toDigits (by decide) (by decide) member)
  rw [Numeral.takeDigits, List.span_eq_takeWhile_dropWhile, List.takeWhile_eq_self_iff.mpr digits,
    List.dropWhile_eq_nil_iff.mpr digits]

theorem value_toDigits (n : Nat) : Numeral.value (Nat.toDigits 10 n) = n := by
  have same : Numeral.value (Nat.toDigits 10 n) = Nat.ofDigitChars 10 (Nat.toDigits 10 n) 0 := by
    simp only [Numeral.value, Nat.ofDigitChars_eq_foldl, Nat.mul_comm]
  rw [same, Nat.ofDigitChars_ten_toDigits]

/-- Only zero itself is written with a zero in front. -/
theorem toDigits_ne_zero_cons (n : Nat) (digit : Char) (digits : List Char) :
    Nat.toDigits 10 n ≠ '0' :: digit :: digits := by
  induction n using Nat.strongRecOn generalizing digit digits with
  | ind n ih =>
    intro leading
    by_cases small : n < 10
    · simp [Nat.toDigits_of_lt_base small] at leading
    · rw [Nat.toDigits_of_base_le (by decide) (by omega)] at leading
      rcases shorter : Nat.toDigits 10 (n / 10) with _ | ⟨first, _ | ⟨second, others⟩⟩
      · exact Nat.toDigits_ne_nil shorter
      · have zero : first = '0' := by simp_all
        subst zero
        have single : n / 10 < 10 := by
          have short : (Nat.toDigits 10 (n / 10)).length ≤ 1 := by simp [shorter]
          exact (Nat.length_toDigits_le_iff (by decide) (by decide)).mp short
        rw [Nat.toDigits_of_lt_base single] at shorter
        have : n / 10 = 0 := by simpa using shorter
        omega
      · have zero : first = '0' := by simp_all
        subst zero
        exact ih (n / 10) (by omega) second others shorter

theorem read_toDigits (negative : Bool) (n : Nat) :
    read (sign negative ++ Nat.toDigits 10 n) =
      some (⟨negative, Nat.toDigits 10 n, [], 0, true⟩, []) :=
  read_eq_some_iff.mpr ⟨Nat.toDigits 10 n, [], [], none, rfl, takeDigits_toDigits n,
    Nat.toDigits_ne_nil, toDigits_ne_zero_cons n, rfl, rfl, rfl, rfl⟩

theorem toDocument_toDigits (negative : Bool) (n : Nat)
    (fits : if negative then 0 < n ∧ n ≤ Nat.pow 2 63 else n < Nat.pow 2 64) :
    toDocument ⟨negative, Nat.toDigits 10 n, [], 0, true⟩ =
      .whole (if negative then -n else n) := by
  simp only [toDocument, value_toDigits]
  exact if_pos ⟨trivial, fits⟩

/-- The text of a whole number of 64 bits reads as that number. -/
theorem read_whole {value : Int} (least : -2 ^ 63 ≤ value) (most : value < 2 ^ 64) :
    ∃ literal, read (toString value).toList = some (literal, []) ∧
      literal.toDocument = .whole value := by
  rw [Int.toString_eq_repr, Int.repr_eq_if]
  split
  · next nonnegative =>
    have text : value.toNat.repr.toList = sign false ++ Nat.toDigits 10 value.toNat :=
      Nat.toList_repr
    have fits : value.toNat < Nat.pow 2 64 := by
      change value.toNat < 2 ^ 64
      omega
    rw [text]
    refine ⟨_, read_toDigits false value.toNat, ?_⟩
    rw [toDocument_toDigits false _ fits, if_neg Bool.false_ne_true,
      Int.toNat_of_nonneg nonnegative]
  · next negative =>
    have text : ("-" ++ (-value).toNat.repr).toList =
        sign true ++ Nat.toDigits 10 (-value).toNat := by
      rw [String.toList_append, Nat.toList_repr]
      rfl
    have fits : 0 < (-value).toNat ∧ (-value).toNat ≤ Nat.pow 2 63 := by
      change 0 < (-value).toNat ∧ (-value).toNat ≤ 2 ^ 63
      omega
    have same : -((-value).toNat : Int) = value := by omega
    rw [text]
    refine ⟨_, read_toDigits true (-value).toNat, ?_⟩
    rw [toDocument_toDigits true _ fits, if_pos rfl, same]

end Literal
end QuditSynth.Document
