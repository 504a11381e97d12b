import QuditSynth.Document.Reader
import QuditSynth.Proofs.Document.Values
import QuditSynth.Proofs.Scalar.Finite

namespace QuditSynth

/-! # Numbers that are read

A number in a text is scaled by powers of ten. It is read only if the result is
finite, so all numbers of a document have the sizes of their types and none is
infinite.
-/

theorem Decimal.isFinite_toFloat {n : Nat} (small : n < 2 ^ 64) (negative : Bool) :
    (toFloat negative ⟨n, 0⟩).isFinite = true := by
  have digits : digitCount n ≤ 20 := by
    unfold digitCount
    split
    · exact Nat.zero_le _
    · exact (Nat.length_toDigits_le_iff (by decide) (by decide)).mpr (by omega)
  have moderate : ¬ magnitudeBound < (digitCount n : Int) + 0 := by
    unfold magnitudeBound
    omega
  have zero : (0.0 : Float).isFinite = true := by decide
  have size : (if n = 0 ∨ (digitCount n : Int) + 0 < -magnitudeBound then 0.0
      else if magnitudeBound < (digitCount n : Int) + 0 then 1.0 / 0.0
      else Float.ofScientific n false 0).isFinite = true := by
    rw [if_neg moderate]
    split
    · exact zero
    · exact Double.isFinite_ofScientific small
  unfold toFloat
  cases negative with
  | false => exact size
  | true => exact Double.isFinite_neg size

namespace Document

namespace Literal

theorem gather_lt {limit word : Nat} (small : word < limit) (digits : List Char) :
    (gather limit word digits).1 < limit := by
  induction digits generalizing word with
  | nil => exact small
  | cons c digits ih =>
      unfold gather
      dsimp only
      split
      · next fits => exact ih fits
      · exact small

theorem atLeastTwo_powerOfTen {exponent : Nat} (positive : 0 < exponent)
    (most : exponent ≤ largestPower) : Double.atLeastTwo (powerOfTen exponent) = true := by
  have exact : ∀ exponent ≤ 22, 0 < exponent →
      Double.atLeastTwo (powerOfTen exponent) = true := by decide +kernel
  have largest : Double.atLeastTwo (powerOfTen 308) = true := by decide +kernel
  unfold largestPower at most
  rcases Nat.lt_or_ge 22 exponent with large | small
  · rcases Nat.lt_or_eq_of_le most with below | rfl
    · exact Double.atLeastTwo_ofScientific large (by omega)
    · exact largest
  · exact exact exponent small positive

theorem isFinite_powerOfTen {exponent : Nat} (most : exponent ≤ largestPower) :
    (powerOfTen exponent).isFinite = true := by
  rcases Nat.eq_zero_or_pos exponent with rfl | positive
  · decide +kernel
  · exact Double.isFinite_of_atLeastTwo (atLeastTwo_powerOfTen positive most)

theorem isFinite_scaleDown {x : Float} {exponent : Nat} (finite : x.isFinite = true)
    (positive : 0 < exponent) : (scaleDown x exponent).isFinite = true := by
  fun_induction scaleDown x exponent with
  | case1 x exponent most =>
      exact Double.isFinite_div finite (atLeastTwo_powerOfTen positive most)
  | case2 => exact finite
  | case3 x exponent beyond _ ih =>
      refine ih (Double.isFinite_div finite ?_) (by omega)
      exact atLeastTwo_powerOfTen (by decide) (Nat.le_refl _)

theorem isFinite_scale {x scaled : Float} {exponent : Int} (finite : x.isFinite = true)
    (accepted : scale x exponent = some scaled) : scaled.isFinite = true := by
  cases exponent with
  | negSucc exponent =>
      cases accepted
      exact isFinite_scaleDown finite (Nat.succ_pos exponent)
  | ofNat exponent =>
      unfold scale at accepted
      dsimp only at accepted
      split at accepted
      · next most =>
        split at accepted
        · cases accepted
        · next notInfinite =>
          cases accepted
          exact (Double.isFinite_or_isInf_mul finite (isFinite_powerOfTen most)).resolve_right
            notInfinite
      · split at accepted
        · cases accepted
          exact finite
        · cases accepted

theorem isFinite_toFloat? {literal : Literal} {x : Float} (accepted : literal.toFloat? = some x) :
    x.isFinite = true := by
  obtain ⟨size, scaled, signed⟩ := Option.bind_eq_some_iff.mp accepted
  have word : (gather (Nat.pow 2 64) 0 literal.whole).1 < Nat.pow 2 64 :=
    gather_lt (by decide) literal.whole
  have finite : size.isFinite = true :=
    isFinite_scale (Decimal.isFinite_toFloat (gather_lt word literal.fraction) false) scaled
  cases signed
  split
  · exact Double.isFinite_neg finite
  · exact finite

end Literal

/-- All numbers have the sizes of their types, and no double is infinite. -/
inductive Bounded : Document → Prop
  | null : Bounded .null
  | bool (value : Bool) : Bounded (.bool value)
  | whole {value : Int} (least : -2 ^ 63 ≤ value) (most : value < 2 ^ 64) : Bounded (.whole value)
  | real {value : Float} (finite : value.isFinite = true) : Bounded (.real value)
  | text (value : String) : Bounded (.text value)
  | list {items : List Document} (all : ∀ item ∈ items, Bounded item) : Bounded (.list items)
  | record {fields : List (Option String × Document)} (all : ∀ field ∈ fields, Bounded field.2) :
      Bounded (.record fields)
  | unreadable : Bounded .unreadable

theorem Literal.bounded_toDocument (literal : Literal) : literal.toDocument.Bounded := by
  have rounded : ((literal.toFloat?.map real).getD unreadable).Bounded := by
    cases read : literal.toFloat? with
    | none => exact .unreadable
    | some x => exact .real (isFinite_toFloat? read)
  unfold toDocument
  cases literal.negative with
  | false =>
      simp only [Bool.false_eq_true, if_false]
      split
      · next whole =>
        have most : Numeral.value literal.whole < 2 ^ 64 := whole.2
        exact .whole (by omega) (by omega)
      · exact rounded
  | true =>
      simp only [if_true]
      split
      · next whole =>
        have most : Numeral.value literal.whole ≤ 2 ^ 63 := whole.2.2
        exact .whole (by omega) (by omega)
      · exact rounded

/-! ## Trees -/

theorem bounded_readValue_succ {fuel : Nat}
    (items : ∀ chars found rest, readItems fuel chars = some (found, rest) →
      ∀ item ∈ found, item.Bounded)
    (fields : ∀ chars found rest, readFields fuel chars = some (found, rest) →
      ∀ field ∈ found, field.2.Bounded)
    {chars rest : List Char} {document : Document}
    (accepted : readValue (fuel + 1) chars = some (document, rest)) : document.Bounded := by
  unfold readValue at accepted
  split at accepted
  · cases accepted
    exact .null
  · cases accepted
    exact .bool true
  · cases accepted
    exact .bool false
  · obtain ⟨⟨pieces, after⟩, _, made⟩ := Option.bind_eq_some_iff.mp accepted
    cases made
    cases Piece.text? pieces with
    | none => exact .unreadable
    | some value => exact .text value
  · split at accepted
    · cases accepted
      exact .list (List.forall_mem_nil _)
    · obtain ⟨⟨found, after⟩, read, made⟩ := Option.bind_eq_some_iff.mp accepted
      cases made
      exact .list (items _ _ _ read)
  · split at accepted
    · cases accepted
      exact .record (List.forall_mem_nil _)
    · obtain ⟨⟨found, after⟩, read, made⟩ := Option.bind_eq_some_iff.mp accepted
      cases made
      exact .record (fields _ _ _ read)
  · obtain ⟨⟨literal, after⟩, _, made⟩ := Option.bind_eq_some_iff.mp accepted
    cases made
    exact literal.bounded_toDocument

theorem bounded_readItems_succ {fuel : Nat}
    (value : ∀ chars document rest, readValue fuel chars = some (document, rest) →
      document.Bounded)
    (items : ∀ chars found rest, readItems fuel chars = some (found, rest) →
      ∀ item ∈ found, item.Bounded)
    {chars rest : List Char} {found : List Document}
    (accepted : readItems (fuel + 1) chars = some (found, rest)) :
    ∀ item ∈ found, item.Bounded := by
  unfold readItems at accepted
  obtain ⟨⟨item, after⟩, read, accepted⟩ := Option.bind_eq_some_iff.mp accepted
  have first := value _ _ _ read
  dsimp only at accepted
  split at accepted
  · obtain ⟨⟨others, last⟩, more, made⟩ := Option.bind_eq_some_iff.mp accepted
    cases made
    exact List.forall_mem_cons.mpr ⟨first, items _ _ _ more⟩
  · cases accepted
    exact List.forall_mem_singleton.mpr first
  · cases accepted

theorem bounded_readFields_succ {fuel : Nat}
    (value : ∀ chars document rest, readValue fuel chars = some (document, rest) →
      document.Bounded)
    (fields : ∀ chars found rest, readFields fuel chars = some (found, rest) →
      ∀ field ∈ found, field.2.Bounded)
    {chars rest : List Char} {found : List (Option String × Document)}
    (accepted : readFields (fuel + 1) chars = some (found, rest)) :
    ∀ field ∈ found, field.2.Bounded := by
  unfold readFields at accepted
  split at accepted
  · obtain ⟨⟨pieces, after⟩, _, accepted⟩ := Option.bind_eq_some_iff.mp accepted
    dsimp only at accepted
    split at accepted
    · obtain ⟨⟨document, after⟩, read, accepted⟩ := Option.bind_eq_some_iff.mp accepted
      have first := value _ _ _ read
      dsimp only at accepted
      split at accepted
      · obtain ⟨⟨others, last⟩, more, made⟩ := Option.bind_eq_some_iff.mp accepted
        cases made
        exact List.forall_mem_cons.mpr ⟨first, fields _ _ _ more⟩
      · cases accepted
        exact List.forall_mem_singleton.mpr first
      · cases accepted
    · cases accepted
  · cases accepted

theorem bounded_read (fuel : Nat) :
    (∀ chars document rest, readValue fuel chars = some (document, rest) → document.Bounded) ∧
    (∀ chars found rest, readItems fuel chars = some (found, rest) →
      ∀ item ∈ found, item.Bounded) ∧
    ∀ chars found rest, readFields fuel chars = some (found, rest) →
      ∀ field ∈ found, field.2.Bounded := by
  induction fuel with
  | zero =>
      refine ⟨?_, ?_, ?_⟩ <;> intro chars found rest accepted
      · simp [readValue] at accepted
      · simp [readItems] at accepted
      · simp [readFields] at accepted
  | succ fuel ih =>
      obtain ⟨value, items, fields⟩ := ih
      exact ⟨fun _ _ _ => bounded_readValue_succ items fields,
        fun _ _ _ => bounded_readItems_succ value items,
        fun _ _ _ => bounded_readFields_succ value fields⟩

theorem bounded_parse {text : String} {document : Document} {rest : List Char}
    (parsed : parse text = some (document, rest)) : document.Bounded :=
  (bounded_read _).1 _ _ _ parsed

end Document
end QuditSynth
