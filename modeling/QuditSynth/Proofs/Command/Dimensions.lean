import QuditSynth.Command.Options
import QuditSynth.Proofs.Document.Scalars
import QuditSynth.Proofs.Outcome

namespace QuditSynth

/-! # How a pair of dimensions is written

Two numerals with a comma between them and blanks around each. Exactly such texts
are read, and two numbers that are written out in this way are read back.
-/

namespace Text

/-! ## Parts -/

variable {separator : Char} {part rest : List Char}

theorem splitChars_ne_nil (separator : Char) (chars : List Char) :
    splitChars separator chars ≠ [] := by
  fun_cases splitChars separator chars <;> simp

theorem splitChars_of_notMem (free : separator ∉ part) : splitChars separator part = [part] := by
  induction part with
  | nil => rfl
  | cons c part ih =>
      rw [List.mem_cons, not_or] at free
      obtain ⟨other, free⟩ := free
      rw [splitChars, ih free]
      exact if_neg (Ne.symm other)

theorem splitChars_append (free : separator ∉ part) (rest : List Char) :
    splitChars separator (part ++ separator :: rest) = part :: splitChars separator rest := by
  induction part with
  | nil =>
      rw [List.nil_append, splitChars]
      cases parts : splitChars separator rest with
      | nil => exact absurd parts (splitChars_ne_nil separator rest)
      | cons first others => exact if_pos rfl
  | cons c part ih =>
      rw [List.mem_cons, not_or] at free
      obtain ⟨other, free⟩ := free
      rw [List.cons_append, splitChars, ih free]
      exact if_neg (Ne.symm other)

/-- Two parts are what stands before and after the only separator. -/
theorem splitChars_eq_pair_iff {chars first second : List Char} :
    splitChars separator chars = [first, second] ↔
      chars = first ++ separator :: second ∧ separator ∉ first ∧ separator ∉ second := by
  constructor
  · intro two
    by_cases once : separator ∈ chars
    · obtain ⟨before, after, rfl, freeBefore⟩ := List.eq_append_cons_of_mem once
      rw [splitChars_append freeBefore, List.cons.injEq] at two
      obtain ⟨rfl, single⟩ := two
      by_cases twice : separator ∈ after
      · obtain ⟨between, end_, rfl, freeBetween⟩ := List.eq_append_cons_of_mem twice
        rw [splitChars_append freeBetween, List.cons.injEq] at single
        exact absurd single.2 (splitChars_ne_nil separator end_)
      · rw [splitChars_of_notMem twice, List.cons.injEq] at single
        obtain ⟨rfl, _⟩ := single
        exact ⟨rfl, freeBefore, twice⟩
    · rw [splitChars_of_notMem once] at two
      simp at two
  · rintro ⟨rfl, freeFirst, freeSecond⟩
    rw [splitChars_append freeFirst, splitChars_of_notMem freeSecond]

/-! ## Blanks -/

/-- Nothing but white space. -/
def Blank (chars : List Char) : Prop := ∀ c ∈ chars, isBlank c = true

instance (chars : List Char) : Decidable (Blank chars) :=
  decidable_of_iff (chars.all isBlank = true) List.all_eq_true

theorem dropWhile_blank {front core : List Char} (others : List Char) (blank : Blank front)
    (visible : ∀ c ∈ core, isBlank c = false) (nonempty : core ≠ []) :
    (front ++ (core ++ others)).dropWhile isBlank = core ++ others := by
  rw [List.dropWhile_append_of_pos blank]
  obtain ⟨c, tail, rfl⟩ := List.exists_cons_of_ne_nil nonempty
  exact List.dropWhile_cons_of_neg (by simp [visible c List.mem_cons_self])

theorem trimChars_between {left core right : List Char} (leftBlank : Blank left)
    (rightBlank : Blank right) (visible : ∀ c ∈ core, isBlank c = false) (nonempty : core ≠ []) :
    trimChars (left ++ core ++ right) = core := by
  have back : (right.reverse ++ core.reverse).dropWhile isBlank = core.reverse := by
    have blank : Blank right.reverse := fun c member => rightBlank c (List.mem_reverse.mp member)
    have seen : ∀ c ∈ core.reverse, isBlank c = false :=
      fun c member => visible c (List.mem_reverse.mp member)
    simpa using dropWhile_blank [] blank seen (by simpa using nonempty)
  rw [trimChars, List.append_assoc, dropWhile_blank right leftBlank visible nonempty,
    List.reverse_append, back, List.reverse_reverse]

/-- What is trimmed off is blank. -/
theorem trimChars_surrounded (chars : List Char) :
    ∃ left right, chars = left ++ trimChars chars ++ right ∧ Blank left ∧ Blank right := by
  have back : chars.dropWhile isBlank =
      trimChars chars ++ ((chars.dropWhile isBlank).reverse.takeWhile isBlank).reverse := by
    rw [trimChars, ← List.reverse_append, List.takeWhile_append_dropWhile, List.reverse_reverse]
  refine ⟨chars.takeWhile isBlank, ((chars.dropWhile isBlank).reverse.takeWhile isBlank).reverse,
    ?_, fun c => List.mem_takeWhile_imp, fun c member =>
      List.mem_takeWhile_imp (List.mem_reverse.mp member)⟩
  rw [List.append_assoc, ← back, List.takeWhile_append_dropWhile]

end Text

namespace Numeral

/-! ## Numerals -/

theorem digit?_of_isDigit {c : Char} (digit : c.isDigit = true) :
    digit? c = some (c.toNat - '0'.toNat) := by
  simp only [Char.isDigit, Bool.and_eq_true, decide_eq_true_eq] at digit
  exact if_pos digit

theorem digit?_of_not_isDigit {c : Char} (other : ¬ c.isDigit = true) : digit? c = none := by
  simp only [Char.isDigit, Bool.and_eq_true, decide_eq_true_eq] at other
  exact if_neg other

/-- The value of digits that go on from a total. -/
def valueFrom (total : Nat) (digits : List Char) : Nat :=
  digits.foldl (fun total c => total * 10 + (c.toNat - '0'.toNat)) total

theorem valueFrom_cons (total : Nat) (c : Char) (digits : List Char) :
    valueFrom total (c :: digits) = valueFrom (total * 10 + (c.toNat - '0'.toNat)) digits := by
  rw [valueFrom, valueFrom, List.foldl_cons]

theorem le_valueFrom (total : Nat) (digits : List Char) : total ≤ valueFrom total digits := by
  induction digits generalizing total with
  | nil => exact Nat.le_refl total
  | cons c digits ih =>
      have grown := ih (total * 10 + (c.toNat - '0'.toNat))
      rw [valueFrom_cons]
      omega

/-- Digits are read to their end unless their value passes the limit. -/
theorem scan_eq_ok_iff {limit total n : Nat} {digits : List Char} (small : total < limit) :
    scan limit total digits = .ok n ↔
      (∀ c ∈ digits, c.isDigit = true) ∧ valueFrom total digits = n ∧ n < limit := by
  induction digits generalizing total with
  | nil =>
      rw [scan, Except.ok.injEq]
      constructor
      · rintro rfl
        exact ⟨List.forall_mem_nil _, rfl, small⟩
      · rintro ⟨_, same, _⟩
        exact same
  | cons c digits ih =>
      rw [scan, valueFrom_cons, List.forall_mem_cons]
      by_cases digit : c.isDigit = true
      · rw [digit?_of_isDigit digit]
        by_cases fits : total * 10 + (c.toNat - '0'.toNat) < limit
        · dsimp only
          rw [if_pos fits, ih fits, and_assoc]
          exact (and_iff_right digit).symm
        · -- The value only grows, so it is past the limit at the end as well.
          have grown := le_valueFrom (total * 10 + (c.toNat - '0'.toNat)) digits
          dsimp only
          rw [if_neg fits]
          constructor
          · nofun
          · rintro ⟨_, rfl, within⟩
            omega
      · rw [digit?_of_not_isDigit digit]
        constructor
        · nofun
        · rintro ⟨⟨isDigit, _⟩, _⟩
          exact absurd isDigit digit

/-- Digits of a number, with a plus sign before them or not. -/
def Spells (chars : List Char) (n : Nat) : Prop :=
  ∃ sign digits, chars = sign ++ digits ∧ (sign = [] ∨ sign = ['+']) ∧ digits ≠ [] ∧
    (∀ c ∈ digits, c.isDigit = true) ∧ value digits = n

theorem spells_plus_iff {digits : List Char} {n : Nat} :
    Spells ('+' :: digits) n ↔
      digits ≠ [] ∧ (∀ c ∈ digits, c.isDigit = true) ∧ value digits = n := by
  constructor
  · rintro ⟨sign, others, spelled, rfl | rfl, nonempty, allDigits, same⟩
    · rw [List.nil_append] at spelled
      subst spelled
      exact absurd (allDigits '+' List.mem_cons_self) (by decide)
    · cases spelled
      exact ⟨nonempty, allDigits, same⟩
  · rintro ⟨nonempty, allDigits, same⟩
    exact ⟨['+'], digits, rfl, .inr rfl, nonempty, allDigits, same⟩

theorem spells_unsigned_iff {digits : List Char} {n : Nat}
    (unsigned : ∀ others, digits ≠ '+' :: others) :
    Spells digits n ↔ digits ≠ [] ∧ (∀ c ∈ digits, c.isDigit = true) ∧ value digits = n := by
  constructor
  · rintro ⟨sign, others, rfl, rfl | rfl, nonempty, allDigits, same⟩
    · exact ⟨nonempty, allDigits, same⟩
    · exact absurd rfl (unsigned others)
  · rintro ⟨nonempty, allDigits, same⟩
    exact ⟨[], digits, rfl, .inl rfl, nonempty, allDigits, same⟩

/-- Exactly the numerals below the limit are read. -/
theorem readNat_eq_ok_iff {limit n : Nat} {text : String} (positive : 0 < limit) :
    readNat limit text = .ok n ↔ Spells text.toList n ∧ n < limit := by
  have scanned : ∀ digits, digits ≠ [] → (scan limit 0 digits = .ok n ↔
      (digits ≠ [] ∧ (∀ c ∈ digits, c.isDigit = true) ∧ value digits = n) ∧ n < limit) := by
    intro digits nonempty
    rw [and_assoc, and_assoc, and_iff_right nonempty]
    exact scan_eq_ok_iff positive
  unfold readNat
  split
  case h_1 empty =>
    rw [empty, spells_unsigned_iff (by simp)]
    simp
  case h_2 sign =>
    rw [sign, spells_plus_iff]
    simp
  case h_3 digits nonempty signed =>
    rw [signed, spells_plus_iff]
    exact scanned digits fun empty => nonempty (by rw [empty])
  case h_4 digits nonempty _ unsigned =>
    rw [spells_unsigned_iff unsigned]
    exact scanned _ nonempty

theorem Spells.ne_nil {chars : List Char} {n : Nat} (spells : Spells chars n) : chars ≠ [] := by
  obtain ⟨sign, digits, rfl, _, nonempty, _⟩ := spells
  exact List.append_ne_nil_of_right_ne_nil sign nonempty

theorem isBlank_of_isDigit {c : Char} (digit : c.isDigit = true) : Text.isBlank c = false := by
  obtain ⟨least, most⟩ : 48 ≤ c.toNat ∧ c.toNat ≤ 57 := Char.isDigit_iff_toNat.mp digit
  simp only [Text.isBlank, Text.blankRanges, List.any_cons, List.any_nil]
  grind

theorem Spells.visible {chars : List Char} {n : Nat} (spells : Spells chars n) :
    ∀ c ∈ chars, Text.isBlank c = false := by
  obtain ⟨sign, digits, rfl, plus, _, allDigits, _⟩ := spells
  intro c member
  rcases List.mem_append.mp member with inSign | inDigits
  · rcases plus with rfl | rfl
    · exact absurd inSign List.not_mem_nil
    · rw [List.mem_singleton.mp inSign]
      decide
  · exact isBlank_of_isDigit (allDigits c inDigits)

theorem Spells.comma_notMem {chars : List Char} {n : Nat} (spells : Spells chars n) :
    ',' ∉ chars := by
  obtain ⟨sign, digits, rfl, plus, _, allDigits, _⟩ := spells
  intro member
  rcases List.mem_append.mp member with inSign | inDigits
  · rcases plus with rfl | rfl
    · exact absurd inSign List.not_mem_nil
    · exact absurd inSign (by decide)
  · exact absurd (allDigits ',' inDigits) (by decide)

theorem spells_toString (n : Nat) : Spells (toString n).toList n := by
  have digits : (toString n).toList = Nat.toDigits 10 n := Nat.toList_repr
  rw [digits]
  refine ⟨[], Nat.toDigits 10 n, rfl, .inl rfl, Nat.toDigits_ne_nil, ?_,
    Document.Literal.value_toDigits n⟩
  intro c member
  exact Nat.isDigit_of_mem_toDigits (by decide) (by decide) member

end Numeral

/-! ## Pairs -/

/-- A dimension with blanks around it. -/
def WrittenDim (chars : List Char) (dim : Nat) : Prop :=
  ∃ left numeral right, chars = left ++ numeral ++ right ∧ Text.Blank left ∧ Text.Blank right ∧
    Numeral.Spells numeral dim ∧ 2 ≤ dim ∧ dim < wordLimit

/-- Two dimensions with the only comma between them. -/
def WrittenDims (chars : List Char) (first second : Nat) : Prop :=
  ∃ before after, chars = before ++ ',' :: after ∧ ',' ∉ before ∧ ',' ∉ after ∧
    WrittenDim before first ∧ WrittenDim after second

theorem readDim_eq_ok_iff {part : String} {dim : Nat} :
    readDim part = .ok dim ↔ Numeral.Spells part.toList dim ∧ 2 ≤ dim ∧ dim < wordLimit := by
  have read : ∀ n, Numeral.readNat wordLimit part = .ok n ↔
      Numeral.Spells part.toList n ∧ n < wordLimit :=
    fun n => Numeral.readNat_eq_ok_iff (Nat.two_pow_pos 64)
  unfold readDim
  cases parsed : Numeral.readNat wordLimit part with
  | error fault =>
      constructor
      · nofun
      · rintro ⟨spells, _, small⟩
        cases parsed.symm.trans ((read dim).mpr ⟨spells, small⟩)
  | ok n =>
      dsimp only
      constructor
      · intro accepted
        split at accepted
        · cases accepted
        · next large =>
          cases accepted
          obtain ⟨spells, small⟩ := (read dim).mp parsed
          exact ⟨spells, Nat.le_of_not_lt large, small⟩
      · rintro ⟨spells, large, small⟩
        cases parsed.symm.trans ((read dim).mpr ⟨spells, small⟩)
        exact if_neg (Nat.not_lt.mpr large)

theorem readDim_trim_iff {chars : List Char} {dim : Nat} :
    readDim (Text.trim (String.ofList chars)) = .ok dim ↔ WrittenDim chars dim := by
  rw [readDim_eq_ok_iff, Text.trim, String.toList_ofList, String.toList_ofList]
  constructor
  · rintro ⟨spells, bounds⟩
    obtain ⟨left, right, surrounded, leftBlank, rightBlank⟩ := Text.trimChars_surrounded chars
    exact ⟨left, _, right, surrounded, leftBlank, rightBlank, spells, bounds⟩
  · rintro ⟨left, numeral, right, rfl, leftBlank, rightBlank, spells, bounds⟩
    rw [Text.trimChars_between leftBlank rightBlank spells.visible spells.ne_nil]
    exact ⟨spells, bounds⟩

theorem readDims_split_iff {text : String} {first second : Nat} :
    readDims text = .ok (first, second) ↔ ∃ before after,
      Text.splitChars ',' text.toList = [before, after] ∧
        readDim (Text.trim (String.ofList before)) = .ok first ∧
        readDim (Text.trim (String.ofList after)) = .ok second := by
  unfold readDims Text.split
  rcases Text.splitChars ',' text.toList with _ | ⟨before, _ | ⟨after, _ | ⟨third, others⟩⟩⟩
  · simp
  · simp
  · simp only [List.map_cons, List.map_nil, Outcome.bind_eq_ok_iff, Outcome.pure_eq_ok,
      Except.ok.injEq, Prod.mk.injEq, List.cons.injEq, and_true]
    constructor
    · rintro ⟨_, front, _, back, rfl, rfl⟩
      exact ⟨before, after, ⟨rfl, rfl⟩, front, back⟩
    · rintro ⟨_, _, ⟨rfl, rfl⟩, front, back⟩
      exact ⟨first, front, second, back, rfl, rfl⟩
  · simp

/-- The text of two dimensions with a comma between them is all that is read. -/
theorem readDims_eq_ok_iff {text : String} {first second : Nat} :
    readDims text = .ok (first, second) ↔ WrittenDims text.toList first second := by
  simp only [readDims_split_iff, Text.splitChars_eq_pair_iff, readDim_trim_iff, and_assoc,
    WrittenDims]

theorem WrittenDim.comma_notMem {chars : List Char} {dim : Nat} (written : WrittenDim chars dim) :
    ',' ∉ chars := by
  obtain ⟨left, numeral, right, rfl, leftBlank, rightBlank, spells, _⟩ := written
  have seen : Text.isBlank ',' = false := by decide
  intro member
  rcases List.mem_append.mp member with inside | inRight
  · rcases List.mem_append.mp inside with inLeft | inNumeral
    · exact absurd (leftBlank _ inLeft) (by rw [seen]; decide)
    · exact spells.comma_notMem inNumeral
  · exact absurd (rightBlank _ inRight) (by rw [seen]; decide)

theorem writtenDim_toString {left right : String} {dim : Nat} (leftBlank : Text.Blank left.toList)
    (rightBlank : Text.Blank right.toList) (large : 2 ≤ dim) (small : dim < wordLimit) :
    WrittenDim (left ++ toString dim ++ right).toList dim :=
  ⟨left.toList, (toString dim).toList, right.toList, by simp only [String.toList_append],
    leftBlank, rightBlank, Numeral.spells_toString dim, large, small⟩

/-- Exactly the texts of two dimensions are read, and among these are the printed ones. -/
theorem readDims_reads_written (first second : Nat) :
    (∀ text : String,
      readDims text = .ok (first, second) ↔ WrittenDims text.toList first second) ∧
    ∀ a b c d : String, 2 ≤ first → first < wordLimit → 2 ≤ second → second < wordLimit →
      Text.Blank a.toList → Text.Blank b.toList → Text.Blank c.toList → Text.Blank d.toList →
      readDims ((a ++ toString first ++ b) ++ "," ++ (c ++ toString second ++ d)) =
        .ok (first, second) := by
  refine ⟨fun text => readDims_eq_ok_iff, ?_⟩
  intro a b c d firstLarge firstSmall secondLarge secondSmall aBlank bBlank cBlank dBlank
  have front := writtenDim_toString aBlank bBlank firstLarge firstSmall
  have back := writtenDim_toString cBlank dBlank secondLarge secondSmall
  apply readDims_eq_ok_iff.mpr
  refine ⟨_, _, ?_, front.comma_notMem, back.comma_notMem, front, back⟩
  rw [String.toList_append, String.toList_append, List.append_assoc]
  rfl

/-- Signs, leading zeros and wide blanks are read, up to the largest word. -/
theorem readDims_reads_written_largest :
    readDims "\t+04 ,\u30004" = .ok (4, 4) ∧ readDims "4,5,6" ≠ .ok (4, 5) ∧
      readDims "\u00a018446744073709551615,\t2\n" = .ok (18446744073709551615, 2) := by
  refine ⟨?_, ?_, ?_⟩
  · exact ((readDims_reads_written 4 4).1 _).mpr ⟨['\t', '+', '0', '4', ' '], ['\u3000', '4'],
      by decide, by decide, by decide,
      ⟨['\t'], ['+', '0', '4'], [' '], rfl, by decide, by decide,
        ⟨['+'], ['0', '4'], rfl, .inr rfl, by decide, List.all_eq_true.mp rfl, rfl⟩,
        by decide, by decide⟩,
      ⟨['\u3000'], ['4'], [], rfl, by decide, by decide,
        ⟨[], ['4'], rfl, .inl rfl, by decide, List.all_eq_true.mp rfl, rfl⟩,
        by decide, by decide⟩⟩
  · intro accepted
    obtain ⟨before, after, cut, freeBefore, freeAfter, _⟩ :=
      ((readDims_reads_written 4 5).1 _).mp accepted
    have commas := congrArg (List.count ',') cut
    rw [List.count_append, List.count_cons_self, List.count_eq_zero.mpr freeBefore,
      List.count_eq_zero.mpr freeAfter] at commas
    exact absurd commas (by decide)
  · have text : "\u00a018446744073709551615,\t2\n" =
        ("\u00a0" ++ toString 18446744073709551615 ++ "") ++ "," ++
          ("\t" ++ toString 2 ++ "\n") := by
      decide +kernel
    rw [text]
    exact (readDims_reads_written _ 2).2 "\u00a0" "" "\t" "\n" (by decide) (by decide) (by decide)
      (by decide) (by decide) (by decide) (by decide) (by decide)

end QuditSynth
