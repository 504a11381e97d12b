import QuditSynth.Proofs.Exact.Scalar
import QuditSynth.Proofs.Gate.Operator

namespace QuditSynth

/-! # Inverting twice

Pulses invert through their angles and stay the pulses they are. All other gates
become custom gates, and the mark of inversion on their name comes and goes. Only
a name that ends in two marks does not come back: both inversions take one off.
-/

namespace Operator

variable {R : Type} [Scalar R]

theorem entry_dagger {u : Operator R} {row col : Nat} (rowBound : row < u.dim)
    (colBound : col < u.dim) : u.dagger.entry row col = (u.entry col row).conj :=
  entry_ofFn _ rowBound colBound

theorem dagger_dagger (negNeg : ∀ x : R, - -x = x) (u : Operator R) : u.dagger.dagger = u := by
  refine eq_of_entries rfl fun row rowBound col colBound => ?_
  rw [entry_dagger (u := u.dagger) rowBound colBound, entry_dagger (u := u) colBound rowBound]
  simp only [Amplitude.conj, negNeg]

end Operator

namespace Gate

/-- A name that ends in two marks of inversion. -/
def TwiceMarked (name : String) : Prop := inverseMark ++ inverseMark <:+ name.toList

theorem toggleInverse_marked (base : List Char) :
    toggleInverse (String.ofList (base ++ inverseMark)) = String.ofList base := by
  have marked : inverseMark.isSuffixOf (base ++ inverseMark) = true :=
    List.isSuffixOf_iff_suffix.mpr (List.suffix_append base inverseMark)
  simp [toggleInverse, marked]

theorem toggleInverse_plain {name : String} (plain : ¬ inverseMark <:+ name.toList) :
    toggleInverse name = String.ofList (name.toList ++ inverseMark) := by
  rw [toggleInverse, if_neg (mt List.isSuffixOf_iff_suffix.mp plain)]

theorem toggleInverse_toggleInverse_eq_iff {name : String} :
    toggleInverse (toggleInverse name) = name ↔ ¬ TwiceMarked name := by
  by_cases marked : inverseMark <:+ name.toList
  · obtain ⟨base, joined⟩ := marked
    obtain rfl : name = String.ofList (base ++ inverseMark) := by rw [joined, String.ofList_toList]
    have twice : TwiceMarked (String.ofList (base ++ inverseMark)) ↔ inverseMark <:+ base := by
      simp only [TwiceMarked, String.toList_ofList, List.IsSuffix, ← List.append_assoc,
        List.append_left_inj]
    rw [toggleInverse_marked, twice]
    constructor
    · -- A second mark comes off as well, and the name is six characters short.
      rintro restored ⟨start, rfl⟩
      rw [toggleInverse_marked] at restored
      have lengths := congrArg String.length restored
      simp [inverseMark] at lengths
    · intro once
      rw [toggleInverse_plain (by simpa using once), String.toList_ofList]
  · have once : ¬ TwiceMarked name := fun twice =>
      marked ((List.suffix_append inverseMark inverseMark).trans twice)
    simp only [once, not_false_eq_true, iff_true]
    rw [toggleInverse_plain marked, toggleInverse_marked, String.ofList_toList]

/-- Pulses of one kind on the same levels, whatever their angles. -/
inductive SamePulse {R : Type} : Gate R → Gate R → Prop
  | r (theta phi theta' phi' : R) (a b : Nat) : SamePulse (r theta phi a b) (r theta' phi' a b)
  | rz (theta theta' : R) (a b : Nat) : SamePulse (rz theta a b) (rz theta' a b)
  | virtRz (theta theta' : R) (level : Nat) : SamePulse (virtRz theta level) (virtRz theta' level)
  | cex (control a b : Nat) (phi phi' : R) : SamePulse (cex control a b phi) (cex control a b phi')
  | ms (theta theta' : R) : SamePulse (ms theta) (ms theta')

namespace SamePulse

variable {R : Type} {gate other third : Gate R}

theorem trans (first : SamePulse gate other) (second : SamePulse other third) :
    SamePulse gate third := by
  cases first <;> cases second <;> constructor

theorem name_eq (same : SamePulse gate other) : other.name = gate.name := by cases same <;> rfl

theorem arity_eq (same : SamePulse gate other) : other.arity = gate.arity := by cases same <;> rfl

theorem category_eq (same : SamePulse gate other) : other.category = gate.category := by
  cases same <;> rfl

theorem isCustom_eq (same : SamePulse gate other) : gate.isCustom = false := by cases same <;> rfl

theorem checkLevels {dims : List Nat} (same : SamePulse gate other)
    (checked : gate.checkLevels dims = .ok ()) : other.checkLevels dims = .ok () := by
  rw [checkLevels_eq_ok_iff] at checked ⊢
  cases same <;> exact checked

end SamePulse

variable {R : Type} {gate : Gate R} {dims : List Nat} {u : Operator R}

theorem arity_getD (checked : gate.checkLevels dims = .ok ()) :
    gate.arity.getD dims.length = dims.length := by
  have suits := checkLevels_eq_ok_iff.mp checked
  cases gate with
  | r | rz | virtRz | h | x => obtain ⟨dim, rfl, _⟩ := suits; rfl
  | cex | ms | csum => obtain ⟨first, second, rfl, _⟩ := suits; rfl
  | unitary => rfl

theorem isCustom_of_twiceMarked (twice : TwiceMarked gate.name) : gate.isCustom = true := by
  cases gate with
  | unitary => rfl
  | r | rz | virtRz | cex | ms | h | x | csum =>
      simp [TwiceMarked, name, inverseMark, List.suffix_cons_iff] at twice

variable [Scalar R] [Exponential R]

theorem dagger_pulse (pulse : gate.category ≠ .generic) (dims : List Nat) :
    ∃ inverse, gate.dagger dims = .ok inverse ∧ SamePulse gate inverse := by
  cases gate with
  | r | rz | virtRz | cex | ms => exact ⟨_, rfl, by constructor⟩
  | h | x | csum | unitary => exact absurd rfl pulse

theorem dagger_generic (generic : gate.category = .generic) (built : gate.operator dims = .ok u) :
    gate.dagger dims = .ok (unitary (toggleInverse gate.name) u.dagger) := by
  cases gate with
  | r | rz | virtRz | cex | ms => cases generic
  | h | x | csum | unitary => simp [dagger, built, canonicalize]

theorem operator_unitary {name : String} (checked : (unitary name u).checkLevels dims = .ok ()) :
    (unitary name u).operator dims = .ok u := by
  rw [operator, checked]
  rfl

/-- The standard gates that are no pulses have a matrix of the dimension of their operands. -/
theorem operator_standard (generic : gate.category = .generic) (standard : gate.isCustom = false)
    (checked : gate.checkLevels dims = .ok ()) :
    ∃ u : Operator R, u.dim = product dims ∧ wordProduct dims = word u.dim ∧
      gate.operator dims = Operator.checkDim (product dims) >>= fun _ => .ok u := by
  have suits := checkLevels_eq_ok_iff.mp checked
  rw [operator, checked, Outcome.ok_bind]
  cases gate with
  | r | rz | virtRz | cex | ms => cases generic
  | unitary => cases standard
  | h =>
      obtain ⟨dim, rfl⟩ := suits
      rw [product_single]
      exact ⟨Operator.fourier dim, rfl, wordProduct_single dim, rfl⟩
  | x =>
      obtain ⟨dim, rfl⟩ := suits
      rw [product_single]
      exact ⟨Operator.cyclicShift dim, rfl, wordProduct_single dim, rfl⟩
  | csum =>
      obtain ⟨first, second, rfl⟩ := suits
      rw [product_pair]
      exact ⟨Operator.controlledSum first second, rfl, wordProduct_pair first second, rfl⟩

theorem dagger_refused (generic : gate.category = .generic)
    (refused : gate.operator dims = .error .outOfRange) :
    gate.dagger dims = .error .outOfRange := by
  cases gate with
  | r | rz | virtRz | cex | ms => cases generic
  | h | x | csum | unitary => simp [dagger, refused]

/-- Only a gate that inverts through the matrix of its kind needs room for it. -/
def Invertible (gate : Gate R) (dims : List Nat) : Prop :=
  gate.category = .generic → gate.isCustom = false → Operator.checkDim (product dims) = .ok ()

/-- A gate, its inverse and the inverse of that on the same operands. -/
structure Restores (dims : List Nat) (gate inverse again : Gate R) : Prop where
  inverted : gate.dagger dims = .ok inverse
  suited : inverse.checkLevels dims = .ok ()
  operands : inverse.arity.getD dims.length = gate.arity.getD dims.length
  back : inverse.dagger dims = .ok again
  name : again.name = gate.name ↔ ¬ (gate.isCustom = true ∧ TwiceMarked gate.name)
  pulse : gate.category ≠ .generic → SamePulse gate again
  matrix : (∀ x : R, - -x = x) → ∀ name u, gate = .unitary name u →
    ∃ restored, again = .unitary restored u

theorem restores_pulse (pulse : gate.category ≠ .generic)
    (checked : gate.checkLevels dims = .ok ()) :
    ∃ inverse again, Restores dims gate inverse again := by
  obtain ⟨inverse, inverted, there⟩ := gate.dagger_pulse pulse dims
  obtain ⟨again, back, andBack⟩ := inverse.dagger_pulse (by rwa [there.category_eq]) dims
  have both := there.trans andBack
  refine ⟨inverse, again, inverted, there.checkLevels checked, by rw [there.arity_eq], back, ?_,
    fun _ => both, ?_⟩
  · simp [both.name_eq, both.isCustom_eq]
  · rintro _ name u rfl
    exact absurd rfl pulse

theorem restores_generic (generic : gate.category = .generic)
    (checked : gate.checkLevels dims = .ok ()) (built : gate.operator dims = .ok u)
    (dim : wordProduct dims = .ok u.dim) : ∃ inverse again, Restores dims gate inverse again := by
  have nonempty : dims ≠ [] := by
    rintro rfl
    cases gate <;> simp [checkLevels_eq_ok_iff, Suits] at checked
  have suited : (unitary (toggleInverse gate.name) u.dagger).checkLevels dims = .ok () :=
    checkLevels_eq_ok_iff.mpr ⟨nonempty, dim⟩
  refine ⟨_, .unitary (toggleInverse (toggleInverse gate.name)) u.dagger.dagger,
    dagger_generic generic built, suited, (arity_getD checked).symm,
    dagger_generic rfl (operator_unitary suited), ?_, fun pulse => absurd generic pulse, ?_⟩
  · have custom : gate.isCustom = true ∧ TwiceMarked gate.name ↔ TwiceMarked gate.name :=
      and_iff_right_of_imp isCustom_of_twiceMarked
    rw [custom, name, toggleInverse_toggleInverse_eq_iff]
  · rintro negNeg name v rfl
    obtain rfl : v = u := Except.ok.inj ((operator_unitary checked).symm.trans built)
    exact ⟨_, by rw [Operator.dagger_dagger negNeg]⟩

theorem restores_of_invertible (checked : gate.checkLevels dims = .ok ())
    (invertible : gate.Invertible dims) : ∃ inverse again, Restores dims gate inverse again := by
  by_cases generic : gate.category = .generic
  · cases gate with
    | unitary name u =>
        have suits := checkLevels_eq_ok_iff.mp checked
        exact restores_generic generic checked (operator_unitary checked) suits.2
    | r | rz | virtRz | cex | ms => cases generic
    | h | x | csum =>
        have room := invertible rfl rfl
        obtain ⟨u, dim, multiplied, built⟩ := operator_standard rfl rfl checked
        rw [room, Outcome.ok_bind] at built
        have fits := Operator.lt_wordLimit_of_checkDim room
        rw [word_of_lt (dim ▸ fits)] at multiplied
        exact restores_generic rfl checked built multiplied
  · exact restores_pulse generic checked

theorem dagger_eq_error (checked : gate.checkLevels dims = .ok ())
    (refused : ¬ gate.Invertible dims) : gate.dagger dims = .error .outOfRange := by
  rw [Invertible] at refused
  push Not at refused
  obtain ⟨generic, standard, full⟩ := refused
  obtain ⟨u, _, _, built⟩ := operator_standard generic standard checked
  have large := (Operator.checkDim_cases (product dims)).resolve_left full
  rw [large, Outcome.error_bind] at built
  exact dagger_refused generic built

/-- A gate that suits its operands can be inverted on them twice, if there is room for its matrix,
and is then the gate it was. -/
theorem dagger_twice (gate : Gate R) (dims : List Nat) (checked : gate.checkLevels dims = .ok ()) :
    (gate.Invertible dims → ∃ inverse again, Restores dims gate inverse again) ∧
      (¬ gate.Invertible dims → gate.dagger dims = .error .outOfRange) :=
  ⟨restores_of_invertible checked, dagger_eq_error checked⟩

/-- A name with one mark loses it and gets it back, with its matrix. -/
theorem dagger_twice_marked :
    let _ : Exponential ℝ := .taylor
    let gate : Gate ℝ := unitary "u_dg" (Operator.identity 6)
    gate.checkLevels [2, 3] = .ok () ∧ ¬ TwiceMarked gate.name ∧
      ∃ inverse, gate.dagger [2, 3] = .ok inverse ∧ inverse.dagger [2, 3] = .ok gate := by
  intro _ gate
  have checked : gate.checkLevels [2, 3] = .ok () := checkLevels_eq_ok_iff.mpr ⟨by simp, rfl⟩
  have once : ¬ TwiceMarked gate.name := by
    simp [gate, TwiceMarked, name, inverseMark, List.suffix_cons_iff]
  obtain ⟨inverse, again, restores⟩ :=
    (dagger_twice gate [2, 3] checked).1 fun _ standard => Bool.noConfusion standard
  obtain ⟨restored, rfl⟩ := restores.matrix neg_neg _ _ rfl
  obtain rfl : restored = "u_dg" := restores.name.mpr fun twice => once twice.2
  exact ⟨checked, once, inverse, restores.inverted, restores.back⟩

/-- Both inversions take a mark off a name that ends in two, and a Fourier transform whose matrix
cannot be addressed has no inverse. -/
theorem dagger_twice_unmarked :
    let gate : Gate Float := unitary "u_dg_dg" (Operator.identity 2)
    gate.checkLevels [2] = .ok () ∧
      (∃ inverse again, gate.dagger [2] = .ok inverse ∧ inverse.dagger [2] = .ok again ∧
        again.name = "u") ∧
      (h : Gate Float).checkLevels [2147483648] = .ok () ∧
      (h : Gate Float).dagger [2147483648] = .error .outOfRange := by
  intro gate
  have inner : toggleInverse "u_dg_dg" = "u_dg" := toggleInverse_marked ['u', '_', 'd', 'g']
  have outer : toggleInverse "u_dg" = "u" := toggleInverse_marked ['u']
  have checked : ∀ name, (unitary name (Operator.identity 2 : Operator Float)).checkLevels [2] =
      .ok () := fun _ => checkLevels_eq_ok_iff.mpr ⟨by simp, rfl⟩
  have rechecked : ∀ name, (unitary name (Operator.identity 2 : Operator Float).dagger).checkLevels
      [2] = .ok () := fun _ => checkLevels_eq_ok_iff.mpr ⟨by simp, rfl⟩
  refine ⟨checked _, ⟨_, _, dagger_generic rfl (operator_unitary (checked _)),
    dagger_generic rfl (operator_unitary (rechecked _)), ?_⟩, rfl, dagger_refused rfl (by rfl)⟩
  simp only [gate, name, inner, outer]

end Gate
end QuditSynth
