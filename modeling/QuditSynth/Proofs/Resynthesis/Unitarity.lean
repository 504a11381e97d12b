import QuditSynth.Proofs.Resynthesis.Failures
import QuditSynth.Proofs.Synthesis.Overlap

namespace QuditSynth

/-! # Unitarity of compiled windows

A window on one qudit is tested for unitarity before it is decomposed. A window
on two qudits is not: it only has to be found by the search. A circuit compiles
exactly if all its windows meet what is asked of them, and the search is asked
too little to keep operators out that are not unitary.
-/

variable {R : Type} [Scalar R] [Exponential R]

/-- A window has an operator that passes the test of decompositions. -/
def Window.PassesForUnitary (window : Window R) (register : Register) : Prop :=
  ∃ u, window.operator register = .ok u ∧
    u.isUnitary (Operator.unitarityTolerance * 1e3) = true

namespace Resynthesis

variable {target : Target R} {circuit : Circuit R} {register : Register} {window : Window R}

/-- What is asked of a window. -/
inductive Admitted (target : Target R) (register : Register) (window : Window R) : Prop
  /-- Nothing, if its gates are native. -/
  | native (isNative : ∀ gate ∈ window.instructions, target.native.isNative gate = true)
  /-- On one qudit, an operator that passes for unitary. -/
  | unitary {qudit : Qudit} {u : Operator R} (alone : window.qudits = [qudit])
      (built : window.operator register = .ok u) (some : u.dim ≠ 0)
      (passes : u.isUnitary (Operator.unitarityTolerance * 1e3) = true)
  /-- On two qudits, an operator that the search finds. -/
  | found {first second : Qudit} {n m : Nat} {u : Operator R} {synthesis : Synthesis R}
      (pair : window.qudits = [first, second]) (built : window.operator register = .ok u)
      (firstDim : register.dimensionOf first = .ok n)
      (secondDim : register.dimensionOf second = .ok m)
      (searched : Search.synthesizeWith target.config (target.familyFor first second) u (n, m) =
        .ok synthesis)

theorem admitted_of_realized {sequence : List (Instruction R)}
    (realized : realize (Search.synthesizeWith target.config) target register window =
      .ok sequence) : Admitted target register window := by
  cases found : window.instructions.find? (!target.native.isNative ·) with
  | none => exact .native (by simpa using found)
  | some offender =>
      rcases shape : window.qudits with _ | ⟨first, _ | ⟨second, _ | _⟩⟩
      · simp only [realize, found, shape] at realized
        cases realized
      · rw [realize_one found _ shape] at realized
        obtain ⟨u, built, decomposed⟩ := Outcome.bind_eq_ok_iff.mp realized
        obtain ⟨some, passes⟩ := decomposeSingleQudit_exists_iff.mp ⟨sequence, decomposed⟩
        exact .unitary shape ((Delivers.lift _).value built) some passes
      · rw [realize_two found _ shape] at realized
        obtain ⟨u, built, realized⟩ := Outcome.bind_eq_ok_iff.mp realized
        obtain ⟨n, firstDim, realized⟩ := Outcome.bind_eq_ok_iff.mp realized
        obtain ⟨m, secondDim, realized⟩ := Outcome.bind_eq_ok_iff.mp realized
        obtain ⟨synthesis, searched, _⟩ := Outcome.bind_eq_ok_iff.mp realized
        exact .found shape ((Delivers.lift _).value built) ((Delivers.lift _).value firstDim)
          ((Delivers.lift _).value secondDim) searched
      · simp only [realize, found, shape] at realized
        cases realized

theorem Admitted.realized (admitted : Admitted target register window) :
    ∃ sequence, realize (Search.synthesizeWith target.config) target register window =
      .ok sequence := by
  cases found : window.instructions.find? (!target.native.isNative ·) with
  | none => exact ⟨_, realize_native _ (by simpa using found)⟩
  | some offender =>
      cases admitted with
      | native isNative =>
          have offends := List.find?_some found
          simp [isNative offender (List.mem_of_find?_eq_some found)] at offends
      | unitary alone built some passes =>
          obtain ⟨sequence, decomposed⟩ := decomposeSingleQudit_exists_iff.mpr ⟨some, passes⟩
          refine ⟨sequence, ?_⟩
          rw [realize_one found _ alone, built]
          exact decomposed
      | @found first second n m u synthesis pair built firstDim secondDim searched =>
          refine ⟨synthesis.remapped first second, ?_⟩
          rw [realize_two found _ pair, built, firstDim, secondDim]
          change (Search.synthesizeWith target.config _ u (n, m) >>= _) = _
          rw [searched]
          rfl

/-- A circuit compiles exactly if each of its windows is admitted. -/
theorem compile_exists_iff (wellFormed : circuit.WellFormed) :
    (∃ out, compile target circuit = .ok out) ↔
      ∀ window, .window window ∈ cut target.native circuit.instructions →
        Admitted target circuit.register window := by
  constructor
  · rintro ⟨out, compiled⟩ window cutOff
    obtain ⟨sequences, realized, _⟩ := Outcome.bind_eq_ok_iff.mp compiled
    obtain ⟨sequence, made⟩ := Outcome.mapM_each realized _ cutOff
    exact admitted_of_realized made
  · intro admitted
    refine compile_exists fun segment cutOff => ?_
    cases segment with
    | measurement instruction =>
        exact ⟨[instruction], rfl, valid_of_mem_cut wellFormed cutOff⟩
    | window window =>
        obtain ⟨sequence, realized⟩ := (admitted window cutOff).realized
        exact ⟨sequence, realized, realizeSegment_valid wellFormed cutOff realized⟩

/-- An admitted window that is neither native nor on two qudits passes for unitary. -/
theorem Admitted.passesForUnitary (admitted : Admitted target register window)
    (foreign : ∃ gate ∈ window.instructions, target.native.isNative gate = false)
    (narrow : window.qudits.length ≠ 2) : window.PassesForUnitary register := by
  cases admitted with
  | native isNative =>
      obtain ⟨gate, member, isForeign⟩ := foreign
      simp [isNative gate member] at isForeign
  | unitary _ built _ passes => exact ⟨_, built, passes⟩
  | found pair => simp [pair] at narrow

/-- What a compiled circuit tells about the windows that were replaced. A circuit that edits can
produce compiles exactly if all its windows are admitted, and all windows that are replaced then
pass for unitary if those on two qudits do. With a window on one qudit that does not pass, nothing
is compiled. -/
theorem compile_unitarity (target : Target Float) (edits : List Edit) (held : Held Float)
    (reached : held ∈ (Workspace.history edits).held) :
    let circuit := held.circuit
    let register := circuit.register
    let replaced := fun window : Window Float =>
      .window window ∈ cut target.native circuit.instructions ∧
        ∃ gate ∈ window.instructions, target.native.isNative gate = false
    ((∃ out, compile target circuit = .ok out) ↔
      ∀ window, .window window ∈ cut target.native circuit.instructions →
        Admitted target register window) ∧
    (((∃ out, compile target circuit = .ok out) →
        ∀ window, replaced window → window.PassesForUnitary register) ↔
      ((∃ out, compile target circuit = .ok out) →
        ∀ window, replaced window → window.qudits.length = 2 →
          window.PassesForUnitary register)) ∧
    ∀ window, replaced window → window.qudits.length ≠ 2 → ¬ window.PassesForUnitary register →
      ∃ cause, compile target circuit = .error cause := by
  intro circuit register replaced
  have wellFormed : circuit.WellFormed := Workspace.wellFormed_history edits held reached
  have accepts : (∃ out, compile target circuit = .ok out) ↔ _ := compile_exists_iff wellFormed
  refine ⟨accepts, ⟨fun every compiled window inside _ => every compiled window inside, ?_⟩, ?_⟩
  · intro pairs compiled window inside
    by_cases pair : window.qudits.length = 2
    · exact pairs compiled window inside pair
    · exact (accepts.mp compiled window inside.1).passesForUnitary inside.2 pair
  · intro window inside narrow fails
    cases compiled : compile target circuit with
    | error cause => exact ⟨cause, rfl⟩
    | ok out =>
        exact absurd ((accepts.mp ⟨out, compiled⟩ window inside.1).passesForUnitary inside.2 narrow)
          fails

/-- A custom gate that stretches a level is refused on its own qudit. -/
theorem compile_unitarity_stretched :
    let target : Target Float := { config := .standard }
    let register : Register := ⟨[2], by decide, by decide⟩
    let stretch : Instruction Float :=
      .ofGate (.unitary "u" (.diagonal [.ofReal 2.0, .ofReal 1.0])) [⟨0⟩]
    let held : Held Float := ⟨⟨"c", register, [stretch]⟩, 1⟩
    let window : Window Float := .ofInstruction target.native stretch
    held ∈ (Workspace.history [.create "c" [2], .append 0 stretch]).held ∧
      ¬ window.PassesForUnitary register ∧
      ∃ cause, compile target held.circuit = .error cause := by
  intro target register stretch held window
  have reached : held ∈ (Workspace.history [.create "c" [2], .append 0 stretch]).held :=
    List.mem_singleton.mpr rfl
  have fails : ¬ window.PassesForUnitary register := by
    rintro ⟨u, built, passes⟩
    have checked : ((window.operator register).toOption.map fun u =>
        u.isUnitary (Operator.unitarityTolerance * 1e3)) = some false := by decide +kernel
    rw [Outcome.toOption_eq_some_iff.mpr built, Option.map_some, passes] at checked
    cases checked
  have replaced : .window window ∈ cut target.native held.circuit.instructions ∧
      ∃ gate ∈ window.instructions, target.native.isNative gate = false :=
    ⟨List.mem_singleton.mpr rfl, stretch, List.mem_singleton.mpr rfl, rfl⟩
  exact ⟨reached, fails, (compile_unitarity target _ held reached).2.2 window replaced (by decide)
    fails⟩

end Resynthesis

section Both

variable {register : Register} {n m : Nat} {gate : Gate ℝ} (dims : register.dims = [n, m])
  (suited : gate.checkLevels [n, m] = .ok ())

include dims suited

theorem Instruction.valid_both : (Instruction.ofGate gate [⟨0⟩, ⟨1⟩]).Valid register where
  within := by simp [ofGate, allQudits, controlQudits, Register.size, dims]
  distinct := by simp [ofGate, allQudits, controlQudits]
  levelled := by simp [ofGate]
  suited := ⟨by simp [ofGate], by simpa [ofGate, dims]⟩

/-- On a register of two qudits the window of a gate on both of them has the operator of the
gate. -/
theorem Window.operator_both [Exponential ℝ] {u : Operator ℝ}
    (room : Operator.checkDim (n * m) = .ok ()) (built : gate.operator [n, m] = .ok u)
    (dim : u.dim = n * m) (native : NativeSet) :
    (Window.ofInstruction native (.ofGate gate [⟨0⟩, ⟨1⟩])).operator register = .ok u := by
  let window : Window ℝ := .ofInstruction native (.ofGate gate [⟨0⟩, ⟨1⟩])
  have sound : window.Sound := sound_ofInstruction rfl
  obtain ⟨inner, selected, spanned, accepted⟩ :=
    accepted_alone sound (List.forall_mem_singleton.mpr (Instruction.valid_both dims suited))
  have innerDims : inner.dims = [n, m] := by
    rw [spanned, Window.dims, dims]
    rfl
  have moved : window.instructions.map (·.remap (positionIn window.qudits)) =
      [.ofGate gate [⟨0⟩, ⟨1⟩]] := rfl
  have size : product inner.dims = n * m := by rw [innerDims, product_pair]
  have addressable : Addressable inner.dims := Register.addressable (size ▸ room)
  have acts : (Instruction.ofGate gate [⟨0⟩, ⟨1⟩]).operator inner = .ok u := by
    have valid := Instruction.valid_both innerDims suited
    obtain ⟨again, chosen, againDims, _⟩ := valid.select_exists rfl
    have sameDims : again.dims = [n, m] := by
      rw [againDims, innerDims]
      rfl
    rw [valid.operator_eq rfl chosen (sameDims ▸ built)]
    rw [innerDims] at addressable ⊢
    exact Operator.embed_all Operator.honestZero_exact addressable
      (dim.trans (product_pair n m).symm)
  rw [moved] at accepted
  rw [operator_eq_localized, selected, Outcome.ok_bind, moved, accepted, Outcome.ok_bind]
  exact (performs_single acts (dim.trans size.symm)).operator_eq addressable (dim.trans size.symm)

end Both

namespace Resynthesis

/-- Twice the operator at which the search starts is compiled. -/
theorem doubled_window_compiles :
    let config : Config ℝ := { Config.standard with family := .crot }
    let ansatz : Ansatz ℝ := ⟨Family.crot.entangler (2, 2), 1⟩
    let register : Register := ⟨[2, 2], by decide, by decide⟩
    let _ : Exponential ℝ := .taylor
    ∃ u out, ansatz.operator (Search.start config ansatz none 0) = .ok u ∧
      let doubled : Operator ℝ := u.scale (.ofReal 2)
      let custom : Instruction ℝ := .ofGate (.unitary "u" doubled) [⟨0⟩, ⟨1⟩]
      let circuit : Circuit ℝ := ⟨"c", register, [custom]⟩
      let window : Window ℝ := .ofInstruction .standard custom
      circuit.WellFormed ∧ cut .standard circuit.instructions = [.window window] ∧
        window.operator register = .ok doubled ∧ ¬ window.PassesForUnitary register ∧
        compile { config } circuit = .ok out := by
  intro config ansatz register _
  have valid : config.validate = .ok () := Config.validate_eq_ok_iff.mpr
    (Config.validate_eq_ok_iff.mp (Search.standard_validate 3))
  have levels : 2 ≤ ((2, 2) : Nat × Nat).1 ∧ 2 ≤ ((2, 2) : Nat × Nat).2 := by decide
  have notMs : Family.crot ≠ .ms := by decide
  obtain ⟨u, built, dim, stretched, synthesis, searched⟩ :=
    Search.synthesizeWith_doubled valid (by decide) levels (by decide) notMs
  let gate : Gate ℝ := .unitary "u" (u.scale (.ofReal 2))
  have suited : gate.checkLevels [2, 2] = .ok () :=
    Gate.checkLevels_eq_ok_iff.mpr ⟨List.cons_ne_nil _ _, congrArg Except.ok dim.symm⟩
  have performed : gate.operator [2, 2] = .ok (u.scale (.ofReal 2)) := by
    rw [Gate.operator, suited]
    rfl
  have acts : (Window.ofInstruction .standard (.ofGate gate [⟨0⟩, ⟨1⟩])).operator register =
      .ok (u.scale (.ofReal 2)) :=
    Window.operator_both rfl suited (by decide) performed dim .standard
  have fails : ¬ (Window.ofInstruction .standard (.ofGate gate [⟨0⟩, ⟨1⟩])).PassesForUnitary
      register := by
    rintro ⟨v, same, passes⟩
    cases acts.symm.trans same
    exact Bool.false_ne_true (stretched.symm.trans passes)
  have wellFormed : Circuit.WellFormed ⟨"c", register, [.ofGate gate [⟨0⟩, ⟨1⟩]]⟩ :=
    List.forall_mem_singleton.mpr (Instruction.valid_both rfl suited)
  have admitted : ∀ window, .window window ∈ cut (Target.native { config })
      [.ofGate gate [⟨0⟩, ⟨1⟩]] → Admitted { config } register window := by
    intro window cutOff
    cases List.mem_singleton.mp cutOff
    exact .found rfl acts rfl rfl searched
  obtain ⟨out, compiled⟩ := (compile_exists_iff wellFormed).mpr admitted
  exact ⟨u, out, built, wellFormed, rfl, acts, fails, compiled⟩

end Resynthesis
end QuditSynth
