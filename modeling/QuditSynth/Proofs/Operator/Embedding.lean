import QuditSynth.Proofs.Operator.Axes
import Mathlib.Data.List.Nodup

namespace QuditSynth.Operator

/-! # Embedding an operator, entry by entry

The checks of `embed` accept exactly the targets and controls that make sense on
the register. From there on an embedding adds one amplitude after another to the
cells of a zero matrix. The list of these additions names cells that exist and no
cell twice, so the embedding exists, and over scalars with an honest zero its
entries are those of `embedded`: the operator on the target digits where all
controls hold, and the identity elsewhere.
-/

variable {R : Type} {dims targets : List Nat} {controls : List (Nat × Nat)}

/-- Every control is a position that is no target, with a level of its qudit. -/
def ControlsFit (dims targets : List Nat) (controls : List (Nat × Nat)) : Prop :=
  ∀ control ∈ controls,
    control.1 < dims.length ∧ control.1 ∉ targets ∧ control.2 < dims.getD control.1 1

theorem controlsFit_nil : ControlsFit dims targets [] := by simp [ControlsFit]

/-- Whether all control digits of a state sit on their levels. -/
def Admits (dims : List Nat) (controls : List (Nat × Nat)) (state : Nat) : Prop :=
  ∀ control ∈ controls, digitIn dims control.1 state = control.2

instance (state : Nat) : Decidable (Admits dims controls state) :=
  inferInstanceAs (Decidable (∀ control ∈ controls, digitIn dims control.1 state = control.2))

theorem admits_nil (state : Nat) : Admits dims [] state := by simp [Admits]

theorem checkTargets_eq_ok_iff {size : Nat} {seen : List Nat} :
    checkTargets size seen targets = .ok () ↔
      (∀ target ∈ targets, target < size) ∧ targets.Nodup ∧ ∀ target ∈ targets, target ∉ seen := by
  induction targets generalizing seen with
  | nil => simp [checkTargets]
  | cons target targets ih =>
      by_cases outside : size ≤ target
      · simp [checkTargets, outside]
      · by_cases repeated : target ∈ seen
        · simp [checkTargets, outside, repeated]
        · simp only [checkTargets, if_neg outside, if_neg repeated, ih, List.mem_cons,
            forall_eq_or_imp, not_or, List.nodup_cons]
          constructor
          · rintro ⟨within, distinct, fresh⟩
            exact ⟨⟨Nat.lt_of_not_le outside, within⟩,
              ⟨fun member => (fresh target member).1 rfl, distinct⟩,
              repeated, fun other member => (fresh other member).2⟩
          · rintro ⟨⟨_, within⟩, ⟨fresh, distinct⟩, _, unseen⟩
            exact ⟨within, distinct, fun other member =>
              ⟨fun equal => fresh (equal ▸ member), unseen other member⟩⟩

theorem checkTargets_eq_ok (positions : Positions dims targets) :
    checkTargets dims.length [] targets = .ok () :=
  checkTargets_eq_ok_iff.mpr ⟨positions.within, positions.distinct, by simp⟩

theorem checkControls_eq_ok_iff :
    checkControls dims targets controls = .ok () ↔ ControlsFit dims targets controls := by
  induction controls with
  | nil => simp [checkControls, ControlsFit]
  | cons control controls ih =>
      obtain ⟨position, level⟩ := control
      simp only [ControlsFit, List.mem_cons, forall_eq_or_imp] at ih ⊢
      by_cases within : position < dims.length
      · simp only [checkControls, List.getElem?_eq_getElem within, List.getD_eq_getElem _ _ within]
        by_cases isTarget : position ∈ targets
        · simp [isTarget]
        · by_cases outside : dims[position] ≤ level
          · simp [isTarget, outside]
          · have inside : level < dims[position] := Nat.lt_of_not_le outside
            simp [isTarget, outside, ih, within, inside]
      · simp [checkControls, within]

variable [Scalar R] {u : Operator R}

/-- Scalars in which nothing but zero passes for zero, and adding to zero gives what is added. -/
structure HonestZero (R : Type) [Scalar R] : Prop where
  zero_add : ∀ amplitude : Amplitude R, 0 + amplitude = amplitude
  eq_zero : ∀ amplitude : Amplitude R, (amplitude == 0) = true → amplitude = 0

theorem zero_add_amplitude (zero_add : ∀ x : R, 0 + x = x) (amplitude : Amplitude R) :
    0 + amplitude = amplitude :=
  congrArg₂ Amplitude.mk (zero_add _) (zero_add _)

theorem honestZero_of_scalars (zero_add : ∀ x : R, 0 + x = x)
    (eq_zero : ∀ x : R, (x == 0) = true → x = 0) : HonestZero R where
  zero_add := zero_add_amplitude zero_add
  eq_zero amplitude vanishes := by
    obtain ⟨real, imaginary⟩ := Bool.and_eq_true_iff.mp vanishes
    exact congrArg₂ Amplitude.mk (eq_zero _ real) (eq_zero _ imaginary)

/-- The entry of an embedded operator at a row and a column. -/
def embedded (u : Operator R) (dims targets : List Nat) (controls : List (Nat × Nat))
    (row col : Nat) : Amplitude R :=
  if Admits dims controls col then
    if Axis.Agree dims targets row col then
      u.entry (Axis.localState (Axis.ofTargets dims targets) row)
        (Axis.localState (Axis.ofTargets dims targets) col)
    else 0
  else if row = col then 1 else 0

/-- An amplitude and the cell it is added to. -/
structure Addition (R : Type) where
  row : Nat
  col : Nat
  amplitude : Amplitude R

def Addition.cell (addition : Addition R) : Nat × Nat := (addition.row, addition.col)

/-- Makes additions one after another. -/
def addAll (full : Operator R) (additions : List (Addition R)) : Except Error (Operator R) :=
  additions.foldlM (fun full addition => full.addAt addition.row addition.col addition.amplitude)
    full

/-- Additions to different cells that exist reach those cells and no others. -/
theorem addAll_exists {additions : List (Addition R)} (full : Operator R)
    (within : ∀ addition ∈ additions, addition.row < full.dim ∧ addition.col < full.dim)
    (distinct : (additions.map Addition.cell).Nodup) :
    ∃ next, full.addAll additions = .ok next ∧ next.dim = full.dim ∧
      (∀ addition ∈ additions, next.entry addition.row addition.col =
        full.entry addition.row addition.col + addition.amplitude) ∧
      ∀ row col, col < full.dim → (row, col) ∉ additions.map Addition.cell →
        next.entry row col = full.entry row col := by
  induction additions generalizing full with
  | nil => exact ⟨full, rfl, rfl, by simp, fun _ _ _ _ => rfl⟩
  | cons addition additions ih =>
      obtain ⟨⟨rowBound, colBound⟩, othersWithin⟩ := List.forall_mem_cons.mp within
      obtain ⟨fresh, othersDistinct⟩ := List.nodup_cons.mp distinct
      obtain ⟨middle, added, middleDim, hit, missed⟩ :=
        addAt_exists addition.amplitude rowBound colBound
      have elsewhere : ∀ row col, col < full.dim → (row, col) ≠ addition.cell →
          middle.entry row col = full.entry row col := by
        intro row col inside apart
        apply missed row col inside
        by_contra same
        rw [not_or, not_not, not_not] at same
        exact apart (Prod.ext same.1 same.2)
      obtain ⟨next, run, nextDim, written, kept⟩ :=
        ih middle (middleDim.symm ▸ othersWithin) othersDistinct
      refine ⟨next, ?_, nextDim.trans middleDim, ?_, ?_⟩
      · rw [addAll, List.foldlM_cons, added]
        exact run
      · intro other member
        rcases List.mem_cons.mp member with rfl | later
        · rw [kept _ _ (middleDim.symm ▸ colBound) fresh, hit]
        · have apart : other.cell ≠ addition.cell := fun same =>
            fresh (same ▸ List.mem_map_of_mem later)
          rw [written other later, elsewhere _ _ (othersWithin other later).2 apart]
      · intro row col inside unwritten
        rw [List.map_cons, List.mem_cons, not_or] at unwritten
        rw [kept row col (middleDim.symm ▸ inside) unwritten.2,
          elsewhere row col inside unwritten.1]

theorem holds_ofControls (dims : List Nat) (controls : List (Nat × Nat)) (state : Nat) :
    (ControlDigit.ofControls dims controls).all (·.holds state) = true ↔
      Admits dims controls state := by
  simp only [ControlDigit.ofControls, List.all_map, List.all_eq_true, Function.comp_apply,
    ControlDigit.holds, weights_getD, beq_iff_eq]
  rfl

/-- What one column adds: the operator's amplitudes that do not pass for zero where all controls
hold, and a one on the diagonal elsewhere. -/
def columnAdditions (u : Operator R) (axes : List Axis) (guards : List ControlDigit) (col : Nat) :
    List (Addition R) :=
  if guards.all (·.holds col) then
    ((List.range u.dim).filter fun inner => !(u.entry inner (Axis.localState axes col) == 0)).map
      fun inner => ⟨Axis.refill axes col inner, col, u.entry inner (Axis.localState axes col)⟩
  else [⟨col, col, 1⟩]

/-- What a whole embedding adds, column by column. -/
def additions (u : Operator R) (dims targets : List Nat) (controls : List (Nat × Nat)) :
    List (Addition R) :=
  (List.range (product dims)).flatMap
    (u.columnAdditions (Axis.ofTargets dims targets) (ControlDigit.ofControls dims controls))

theorem embedColumn_eq_addAll (axes : List Axis) (guards : List ControlDigit) (full : Operator R)
    (col : Nat) :
    u.embedColumn axes guards full col = full.addAll (u.columnAdditions axes guards col) := by
  rw [embedColumn, columnAdditions]
  split
  · rw [addAll, List.foldlM_map, List.foldlM_filter]
    dsimp only
    congr 1
    funext current inner
    cases u.entry inner (Axis.localState axes col) == 0 with
    | true => rfl
    | false => rfl
  · rw [addAll, List.foldlM_cons]
    exact (bind_pure _).symm

theorem foldlM_embedColumn (axes : List Axis) (guards : List ControlDigit) (cols : List Nat)
    (full : Operator R) :
    cols.foldlM (u.embedColumn axes guards) full =
      full.addAll (cols.flatMap (u.columnAdditions axes guards)) := by
  induction cols generalizing full with
  | nil => rfl
  | cons col cols ih =>
      rw [List.foldlM_cons, List.flatMap_cons, addAll, List.foldlM_append, embedColumn_eq_addAll]
      exact congrArg _ (funext ih)

theorem mem_columnAdditions_iff {col : Nat} {addition : Addition R} :
    addition ∈ u.columnAdditions (Axis.ofTargets dims targets)
        (ControlDigit.ofControls dims controls) col ↔
      if Admits dims controls col then
        ∃ inner < u.dim,
          (u.entry inner (Axis.localState (Axis.ofTargets dims targets) col) == 0) = false ∧
          ⟨Axis.refill (Axis.ofTargets dims targets) col inner, col,
            u.entry inner (Axis.localState (Axis.ofTargets dims targets) col)⟩ = addition
      else addition = ⟨col, col, 1⟩ := by
  rw [columnAdditions]
  by_cases admits : Admits dims controls col
  · rw [if_pos admits, if_pos ((holds_ofControls dims controls col).mpr admits)]
    simp only [List.mem_map, List.mem_filter, List.mem_range, Bool.not_eq_true', and_assoc]
  · rw [if_neg admits, if_neg (mt (holds_ofControls dims controls col).mp admits),
      List.mem_singleton]

theorem col_of_mem_columnAdditions {axes : List Axis} {guards : List ControlDigit} {col : Nat}
    {addition : Addition R} (member : addition ∈ u.columnAdditions axes guards col) :
    addition.col = col := by
  rw [columnAdditions] at member
  split at member
  · obtain ⟨_, _, rfl⟩ := List.mem_map.mp member
    rfl
  · rw [List.mem_singleton.mp member]

theorem mem_additions_iff {addition : Addition R} :
    addition ∈ u.additions dims targets controls ↔
      addition.col < product dims ∧
        addition ∈ u.columnAdditions (Axis.ofTargets dims targets)
          (ControlDigit.ofControls dims controls) addition.col := by
  rw [additions, List.mem_flatMap]
  constructor
  · rintro ⟨col, inRange, added⟩
    rw [col_of_mem_columnAdditions added]
    exact ⟨List.mem_range.mp inRange, added⟩
  · rintro ⟨colBound, added⟩
    exact ⟨addition.col, List.mem_range.mpr colBound, added⟩

/-- An embedding adds to cells that exist. -/
theorem additions_within (addressable : Addressable dims) (positions : Positions dims targets) :
    ∀ addition ∈ u.additions dims targets controls,
      addition.row < product dims ∧ addition.col < product dims := by
  intro addition member
  obtain ⟨colBound, added⟩ := mem_additions_iff.mp member
  refine ⟨?_, colBound⟩
  rw [mem_columnAdditions_iff] at added
  split at added
  · obtain ⟨inner, _, _, same⟩ := added
    rw [← same]
    exact Axis.refill_lt addressable positions colBound inner
  · rw [added]
    exact colBound

/-- An embedding adds to no cell twice. -/
theorem additions_distinct (addressable : Addressable dims) (positions : Positions dims targets)
    (dim : u.dim = product (Axis.targetDims dims targets)) :
    ((u.additions dims targets controls).map Addition.cell).Nodup := by
  rw [additions, List.map_flatMap, List.nodup_flatMap]
  constructor
  · intro col inRange
    rw [columnAdditions]
    split
    · rw [List.map_map]
      apply List.Nodup.map_on _ (List.nodup_range.filter _)
      intro first firstIn second secondIn same
      have colBound := List.mem_range.mp inRange
      have firstBound := List.mem_range.mp (List.mem_of_mem_filter firstIn)
      have secondBound := List.mem_range.mp (List.mem_of_mem_filter secondIn)
      rw [dim] at firstBound secondBound
      have rows : Axis.refill (Axis.ofTargets dims targets) col first =
          Axis.refill (Axis.ofTargets dims targets) col second := congrArg Prod.fst same
      rw [← Axis.localState_refill addressable positions colBound firstBound, rows,
        Axis.localState_refill addressable positions colBound secondBound]
    · exact List.nodup_singleton _
  · -- Different columns have no cell in common.
    refine List.nodup_range.imp fun {first second} apart cell inFirst inSecond => apart ?_
    obtain ⟨addition, added, rfl⟩ := List.mem_map.mp inFirst
    obtain ⟨other, otherAdded, same⟩ := List.mem_map.mp inSecond
    rw [← col_of_mem_columnAdditions added, ← col_of_mem_columnAdditions otherAdded]
    exact (congrArg Prod.snd same).symm

theorem not_mem_cells {row col : Nat}
    (unwritten : ∀ addition ∈ u.columnAdditions (Axis.ofTargets dims targets)
      (ControlDigit.ofControls dims controls) col, addition.row ≠ row) :
    (row, col) ∉ (u.additions dims targets controls).map Addition.cell := by
  intro member
  obtain ⟨addition, listed, same⟩ := List.mem_map.mp member
  cases same
  exact unwritten addition (mem_additions_iff.mp listed).2 rfl

/-- What is left of an amplitude: nothing if it passes for zero. -/
def settled (amplitude : Amplitude R) : Amplitude R :=
  if amplitude == 0 then 0 else amplitude

theorem HonestZero.settled_eq (honest : HonestZero R) (amplitude : Amplitude R) :
    settled amplitude = amplitude := by
  rw [settled]
  split
  · rename_i vanishes
    exact (honest.eq_zero amplitude vanishes).symm
  · rfl

/-- The additions of an embedding can be made, and give every cell its one amplitude. -/
theorem addAll_additions (addressable : Addressable dims) (positions : Positions dims targets)
    (controls : List (Nat × Nat)) (dim : u.dim = product (Axis.targetDims dims targets)) :
    ∃ full, (zero (product dims)).addAll (u.additions dims targets controls) = .ok full ∧
      full.dim = product dims ∧
      ((∀ amplitude : Amplitude R, 0 + amplitude = amplitude) →
        ∀ row < product dims, ∀ col < product dims,
          full.entry row col =
            if Admits dims controls col then
              if Axis.Agree dims targets row col then
                settled (u.entry (Axis.localState (Axis.ofTargets dims targets) row)
                  (Axis.localState (Axis.ofTargets dims targets) col))
              else 0
            else if row = col then 1 else 0) := by
  have distinct : ((u.additions dims targets controls).map Addition.cell).Nodup :=
    additions_distinct addressable positions dim
  obtain ⟨full, run, fullDim, written, kept⟩ := addAll_exists (zero (product dims))
    (additions_within addressable positions) distinct
  refine ⟨full, run, fullDim, fun zero_add row rowBound col colBound => ?_⟩
  have hit : ∀ amplitude, ⟨row, col, amplitude⟩ ∈ u.columnAdditions (Axis.ofTargets dims targets)
      (ControlDigit.ofControls dims controls) col → full.entry row col = amplitude := by
    intro amplitude added
    rw [written _ (mem_additions_iff.mpr ⟨colBound, added⟩), entry_zero, zero_add]
  have missed : (∀ addition ∈ u.columnAdditions (Axis.ofTargets dims targets)
      (ControlDigit.ofControls dims controls) col, addition.row ≠ row) →
        full.entry row col = 0 := by
    intro unwritten
    rw [kept row col colBound (not_mem_cells unwritten), entry_zero]
  by_cases admits : Admits dims controls col
  · simp only [mem_columnAdditions_iff, if_pos admits] at hit missed ⊢
    by_cases agree : Axis.Agree dims targets row col
    · rw [if_pos agree, settled]
      have rowEq := (Axis.agree_iff_eq_refill addressable positions rowBound colBound).mp agree
      split
      · rename_i vanishes
        -- An addition to this row would be one of the amplitude that was left out.
        apply missed
        rintro _ ⟨inner, small, stays, rfl⟩ same
        rw [← same, Axis.localState_refill addressable positions colBound (dim ▸ small)] at vanishes
        exact absurd (vanishes.symm.trans stays) (by simp)
      · rename_i stays
        apply hit
        refine ⟨_, ?_, Bool.eq_false_iff.mpr stays, ?_⟩
        · rw [dim]
          exact Axis.localState_lt addressable positions row
        · rw [← rowEq]
    · rw [if_neg agree]
      apply missed
      rintro _ ⟨inner, _, _, rfl⟩ same
      apply agree
      rw [← same]
      exact Axis.agree_refill addressable positions colBound inner
  · simp only [mem_columnAdditions_iff, if_neg admits] at hit missed ⊢
    by_cases diagonal : row = col
    · rw [if_pos diagonal]
      apply hit
      rw [diagonal]
    · rw [if_neg diagonal]
      apply missed
      rintro _ rfl same
      exact diagonal same.symm

/-- Past its checks, an embedding only has to find room for its result: sizes that do not fit in
words are too large for that in any case. -/
theorem embed_eq_addAll (positive : ∀ dim ∈ dims, 0 < dim) (positions : Positions dims targets)
    (controlled : ControlsFit dims targets controls)
    (dim : u.dim = product (Axis.targetDims dims targets)) :
    u.embed dims targets controls = (do
      checkDim (product dims)
      (zero (product dims)).addAll (u.additions dims targets controls)) := by
  have innerPositive := targetDims_positive positive targets
  simp only [embed, checkTargets_eq_ok positions, checkControls_eq_ok_iff.mpr controlled,
    wordProduct_eq positive, wordProduct_eq innerPositive, ← dim, Outcome.ok_bind]
  by_cases fits : product dims < wordLimit
  · have inner : u.dim < wordLimit := dim ▸ Nat.lt_of_le_of_lt (positions.product_le positive) fits
    have innerTail : product (Axis.targetDims dims targets).tail < wordLimit :=
      Nat.lt_of_le_of_lt (tail_le_product innerPositive) (dim ▸ inner)
    simp only [word_of_lt inner, word_of_lt fits, strides_of_lt innerPositive innerTail,
      strides_of_lt positive (Nat.lt_of_le_of_lt (tail_le_product positive) fits), Outcome.ok_bind,
      ne_eq, not_true_eq_false, ↓reduceIte, foldlM_embedColumn]
    rfl
  · have refused : checkDim (product dims) = .error .outOfRange :=
      (checkDim_cases _).resolve_left fun room => fits (lt_wordLimit_of_checkDim room)
    rw [refused, Outcome.error_bind]
    by_cases inner : u.dim < wordLimit
    · have innerTail : product (Axis.targetDims dims targets).tail < wordLimit :=
        Nat.lt_of_le_of_lt (tail_le_product innerPositive) (dim ▸ inner)
      simp only [word_of_lt inner, word_refused fits, strides_of_lt innerPositive innerTail,
        Outcome.ok_bind, Outcome.error_bind, ne_eq, not_true_eq_false, ↓reduceIte]
      by_cases tail : product dims.tail < wordLimit
      · rw [strides_of_lt positive tail]
        rfl
      · rw [strides_refused tail]
        rfl
    · rw [word_refused inner, Outcome.error_bind]

theorem embed_refused (positive : ∀ dim ∈ dims, 0 < dim) (positions : Positions dims targets)
    (controlled : ControlsFit dims targets controls)
    (refused : checkDim (product dims) = .error .outOfRange)
    (dim : u.dim = product (Axis.targetDims dims targets)) :
    u.embed dims targets controls = .error .outOfRange := by
  rw [embed_eq_addAll positive positions controlled dim, refused]
  rfl

/-- Once its checks pass an embedding exists, with the entries of `embedded`. -/
theorem embed_exists (addressable : Addressable dims) (positions : Positions dims targets)
    (controlled : ControlsFit dims targets controls)
    (dim : u.dim = product (Axis.targetDims dims targets)) :
    ∃ full, u.embed dims targets controls = .ok full ∧ full.dim = product dims ∧
      (HonestZero R → ∀ row < product dims, ∀ col < product dims,
        full.entry row col = u.embedded dims targets controls row col) := by
  obtain ⟨full, run, fullDim, entries⟩ := addAll_additions addressable positions controls dim
  refine ⟨full, ?_, fullDim, ?_⟩
  · rw [embed_eq_addAll addressable.positive positions controlled dim, addressable.room]
    exact run
  · intro honest row rowBound col colBound
    rw [entries honest.zero_add row rowBound col colBound, honest.settled_eq]
    rfl

/-- On all qudits of a register, in their order, an operator is its own embedding. -/
theorem embed_all (honest : HonestZero R) (addressable : Addressable dims)
    (same : u.dim = product dims) : u.embed dims (List.range dims.length) [] = .ok u := by
  have positions : Positions dims (List.range dims.length) := ⟨by simp, List.nodup_range⟩
  have targets := Axis.targetDims_range dims
  obtain ⟨full, run, fullDim, entries⟩ := embed_exists addressable positions controlsFit_nil
    (same.trans (congrArg product targets.symm))
  have whole : ∀ state < product dims,
      Axis.localState (Axis.ofTargets dims (List.range dims.length)) state = state := by
    intro state bound
    have small := Axis.localState_lt addressable positions state
    rw [targets] at small
    refine state_eq_of_digits small bound fun position within => ?_
    have inside : position < (List.range dims.length).length := by simpa using within
    have digit := Axis.digitIn_localState addressable positions state inside
    rwa [targets, List.getElem_range] at digit
  have agree : ∀ first second, Axis.Agree dims (List.range dims.length) first second :=
    fun _ _ position within outside => absurd (List.mem_range.mpr within) outside
  rw [run]
  refine congrArg Except.ok (eq_of_entries (fullDim.trans same.symm) ?_)
  intro row rowBound col colBound
  rw [fullDim] at rowBound colBound
  rw [entries honest row rowBound col colBound, embedded, if_pos (admits_nil col),
    if_pos (agree row col), whole row rowBound, whole col colBound]

/-- On a register of a single qudit an operator is its own embedding. -/
theorem embed_whole (honest : HonestZero R) {dim : Nat} (addressable : Addressable [dim])
    (same : u.dim = dim) : u.embed [dim] [0] [] = .ok u :=
  embed_all honest addressable (same.trans (product_single dim).symm)

end QuditSynth.Operator
