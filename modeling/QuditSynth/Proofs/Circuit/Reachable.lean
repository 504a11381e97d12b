import QuditSynth.Circuit.Workspace
import QuditSynth.Document.Circuit
import QuditSynth.Proofs.Circuit.Operator

namespace QuditSynth

/-! # Circuits that can be reached

A workspace is filled by edits, any of which may be refused. Whatever the edits,
all circuits in the workspace stay well formed, and so their operators exist
unless a measurement is among their instructions.
-/

/-- A way of making or changing circuits. -/
inductive Edit
  | create (name : String) (dims : List Nat)
  | createOn (name : String) (register : Register)
  /-- A gate or a measurement at the end of a circuit. -/
  | append (number : Nat) (instruction : Instruction Float)
  | replace (number : Nat) (instructions : List (Instruction Float))
  | copy (number : Nat)
  /-- A circuit from its text. -/
  | load (text : String)

namespace Workspace

/-- The workspace after an edit, none if the edit is refused. -/
def edit? (workspace : Workspace Float) : Edit → Option (Workspace Float)
  | .create name dims => (Circuit.ofDims name dims).toOption.map workspace.add
  | .createOn name register => some (workspace.add (.empty name register))
  | .append number instruction => (workspace.append number instruction).toOption
  | .replace number instructions => (workspace.withInstructions number instructions).toOption
  | .copy number => (workspace.copy number).toOption
  | .load text => (Circuit.read text).toOption.map workspace.add

/-- An edit that is refused changes nothing. -/
def edit (workspace : Workspace Float) (change : Edit) : Workspace Float :=
  (workspace.edit? change).getD workspace

/-- The workspace after some edits, beginning with an empty one. -/
def history (edits : List Edit) : Workspace Float := edits.foldl edit {}

/-- All circuits of the workspace are well formed. -/
def WellFormed {R : Type} (workspace : Workspace R) : Prop :=
  ∀ held ∈ workspace.held, held.circuit.WellFormed

end Workspace

theorem Circuit.wellFormed_empty {R : Type} (name : String) (register : Register) :
    (Circuit.empty name register : Circuit R).WellFormed := by
  simp [WellFormed, empty]

theorem Circuit.wellFormed_withInstructions {R : Type} {circuit result : Circuit R}
    {instructions : List (Instruction R)}
    (accepted : circuit.withInstructions instructions = .ok result) : result.WellFormed := by
  obtain ⟨valid, rfl⟩ := withInstructions_eq_ok_iff.mp accepted
  exact valid

theorem Circuit.wellFormed_append {R : Type} {circuit result : Circuit R}
    {instruction : Instruction R} (wellFormed : circuit.WellFormed)
    (accepted : circuit.append instruction = .ok result) : result.WellFormed := by
  obtain ⟨validated, appended⟩ := Outcome.check_bind_eq_ok_iff.mp accepted
  cases appended
  intro other member
  rcases List.mem_append.mp member with present | new
  · exact wellFormed other present
  · rw [List.mem_singleton.mp new]
    exact Instruction.validate_eq_ok_iff.mp validated

theorem Document.read_eq_ok_iff {α β : Type} {text : String} {decode : Document → Option α}
    {accept : α → Except Error β} {value : β} : Document.read text decode accept = .ok value ↔
      ∃ document rest raw, Document.parse text = some (document, rest) ∧
        decode document = some raw ∧ accept raw = .ok value ∧ Document.skipSpace rest = [] := by
  unfold read
  cases parsed : parse text with
  | none => simp
  | some found =>
      obtain ⟨document, rest⟩ := found
      cases decoded : decode document with
      | none => simp [decoded]
      | some raw =>
          cases accepted : accept raw with
          | error => simp [decoded, accepted]
          | ok => by_cases ended : skipSpace rest = [] <;> simp [decoded, accepted, ended]

theorem Circuit.checked_eq_ok_iff {raw circuit : Circuit Float} :
    raw.checked = .ok circuit ↔ raw = circuit ∧ circuit.WellFormed := by
  rw [checked, withInstructions_eq_ok_iff]
  constructor
  · rintro ⟨valid, rfl⟩
    exact ⟨rfl, valid⟩
  · rintro ⟨rfl, valid⟩
    exact ⟨valid, rfl⟩

theorem Circuit.read_eq_ok_iff {text : String} {circuit : Circuit Float} :
    read text = .ok circuit ↔ ∃ document rest, Document.parse text = some (document, rest) ∧
      Document.skipSpace rest = [] ∧ ofDocument? document = some circuit ∧
      circuit.WellFormed := by
  simp only [read, Document.read_eq_ok_iff, checked_eq_ok_iff]
  constructor
  · rintro ⟨document, rest, _, parsed, decoded, ⟨rfl, wellFormed⟩, ended⟩
    exact ⟨document, rest, parsed, ended, decoded, wellFormed⟩
  · rintro ⟨document, rest, parsed, ended, decoded, wellFormed⟩
    exact ⟨document, rest, circuit, parsed, decoded, ⟨rfl, wellFormed⟩, ended⟩

theorem Circuit.wellFormed_read {text : String} {circuit : Circuit Float}
    (accepted : read text = .ok circuit) : circuit.WellFormed := by
  obtain ⟨_, _, _, _, _, wellFormed⟩ := read_eq_ok_iff.mp accepted
  exact wellFormed

namespace Workspace

variable {R : Type} {workspace next : Workspace R} {number : Nat}

theorem wellFormed_add (wellFormed : workspace.WellFormed) {circuit : Circuit R}
    (valid : circuit.WellFormed) : (workspace.add circuit).WellFormed := by
  intro held member
  rcases List.mem_append.mp member with present | new
  · exact wellFormed held present
  · rw [List.mem_singleton.mp new]
    exact valid

theorem mem_of_get {held : Held R} (found : workspace.get number = .ok held) :
    held ∈ workspace.held := by
  unfold get at found
  split at found
  · next present =>
    cases found
    exact List.mem_of_getElem? present
  · cases found

theorem circuit_wellFormed (wellFormed : workspace.WellFormed) {circuit : Circuit R}
    (found : workspace.circuit number = .ok circuit) : circuit.WellFormed := by
  obtain ⟨held, present, rfl⟩ := by
    simpa only [Workspace.circuit, Outcome.bind_eq_ok_iff, Outcome.pure_eq_ok, Except.ok.injEq]
      using found
  exact wellFormed held (mem_of_get present)

theorem wellFormed_copy (wellFormed : workspace.WellFormed)
    (accepted : workspace.copy number = .ok next) : next.WellFormed := by
  obtain ⟨held, present, copied⟩ := Outcome.bind_eq_ok_iff.mp accepted
  cases copied
  intro other member
  rcases List.mem_append.mp member with older | new
  · exact wellFormed other older
  · rw [List.mem_singleton.mp new]
    exact wellFormed held (mem_of_get present)

theorem wellFormed_replace (wellFormed : workspace.WellFormed)
    {instructions : List (Instruction R)}
    (accepted : workspace.withInstructions number instructions = .ok next) :
    next.WellFormed := by
  obtain ⟨circuit, _, accepted⟩ := Outcome.bind_eq_ok_iff.mp accepted
  obtain ⟨result, replaced, added⟩ := Outcome.bind_eq_ok_iff.mp accepted
  cases added
  exact wellFormed_add wellFormed (Circuit.wellFormed_withInstructions replaced)

theorem wellFormed_append (wellFormed : workspace.WellFormed) {instruction : Instruction R}
    (accepted : workspace.append number instruction = .ok next) : next.WellFormed := by
  obtain ⟨circuit, found, accepted⟩ := Outcome.bind_eq_ok_iff.mp accepted
  obtain ⟨longer, appended, stored⟩ := Outcome.bind_eq_ok_iff.mp accepted
  cases stored
  intro held member
  rcases List.mem_or_eq_of_mem_set member with older | rfl
  · exact wellFormed held older
  · exact Circuit.wellFormed_append (circuit_wellFormed wellFormed found) appended

/-- One edit keeps the circuits well formed. -/
theorem wellFormed_edit {workspace : Workspace Float} (wellFormed : workspace.WellFormed)
    (change : Edit) : (workspace.edit change).WellFormed := by
  unfold edit
  cases performed : workspace.edit? change with
  | none => exact wellFormed
  | some next =>
      rw [Option.getD_some]
      cases change with
      | create name dims =>
          obtain ⟨circuit, made, rfl⟩ := Option.map_eq_some_iff.mp performed
          obtain ⟨register, _, created⟩ :=
            Outcome.bind_eq_ok_iff.mp (Outcome.toOption_eq_some_iff.mp made)
          cases created
          exact wellFormed_add wellFormed (Circuit.wellFormed_empty name register)
      | createOn name register =>
          cases performed
          exact wellFormed_add wellFormed (Circuit.wellFormed_empty name register)
      | append number instruction =>
          exact wellFormed_append wellFormed (Outcome.toOption_eq_some_iff.mp performed)
      | replace number instructions =>
          exact wellFormed_replace wellFormed (Outcome.toOption_eq_some_iff.mp performed)
      | copy number =>
          exact wellFormed_copy wellFormed (Outcome.toOption_eq_some_iff.mp performed)
      | load text =>
          obtain ⟨circuit, made, rfl⟩ := Option.map_eq_some_iff.mp performed
          exact wellFormed_add wellFormed
            (Circuit.wellFormed_read (Outcome.toOption_eq_some_iff.mp made))

theorem wellFormed_history (edits : List Edit) : (history edits).WellFormed := by
  have kept : ∀ workspace : Workspace Float, workspace.WellFormed →
      (edits.foldl edit workspace).WellFormed := by
    induction edits with
    | nil => exact fun _ wellFormed => wellFormed
    | cons change edits ih => exact fun _ wellFormed => ih _ (wellFormed_edit wellFormed change)
  exact kept {} (by simp [WellFormed])

/-- Every circuit that edits can produce holds valid instructions only. If the matrices of its
register can be addressed, its operator exists exactly when it has no measurement, and no check on
the way from a valid gate to the operator of the circuit fails. If they cannot, there is no
operator at all. -/
theorem history_operator_total (edits : List Edit) (held : Held Float)
    (reached : held ∈ (history edits).held) :
    let circuit := held.circuit
    let register := circuit.register
    (∀ instruction ∈ circuit.instructions, instruction.validate register = .ok ()) ∧
    (¬ product register.dims * product register.dims * 16 < 2 ^ 63 →
      circuit.operator = .error .outOfRange) ∧
    (product register.dims * product register.dims * 16 < 2 ^ 63 →
      (circuit.hasMeasurement = false →
        ∃ u, circuit.operator = .ok u ∧ register.totalDimension = .ok u.dim) ∧
      (circuit.hasMeasurement = true →
        circuit.operator = .error (.nonUnitary "measure")) ∧
      ∀ (instruction : Instruction Float) (gate : Gate Float),
        instruction.validate register = .ok () → instruction.action = .gate gate →
        ∃ inner u full,
          register.select instruction.qudits = .ok inner ∧
          gate.checkLevels inner.dims = .ok () ∧
          gate.operator inner.dims = .ok u ∧
          u.embed register.dims (instruction.qudits.map Qudit.index) instruction.controlPairs =
            .ok full ∧
          instruction.operator register = .ok full ∧
          ∀ total : Operator Float, register.totalDimension = .ok total.dim →
            ∃ next, full.compose total = .ok next ∧ register.totalDimension = .ok next.dim) := by
  intro circuit register
  have wellFormed : circuit.WellFormed := wellFormed_history edits held reached
  refine ⟨fun instruction member =>
    Instruction.validate_eq_ok_iff.mpr (wellFormed instruction member),
    circuit.operator_unaddressable, fun room => ?_⟩
  have addressable : Addressable register.dims :=
    Register.addressable (checkCapacity_eq_ok_iff.mpr room)
  have total := Register.totalDimension_eq addressable
  refine ⟨fun gates => ?_,
    fun measured => circuit.operator_measured wellFormed addressable measured,
    fun instruction gate validated acts => ?_⟩
  · obtain ⟨u, built, dim⟩ := circuit.operator_exists wellFormed addressable gates
    exact ⟨u, built, dim ▸ total⟩
  · have valid := Instruction.validate_eq_ok_iff.mp validated
    obtain ⟨inner, u, full, selected, _, levels, built, _, embedded, fullDim⟩ :=
      valid.operator_stages addressable acts
    refine ⟨inner, u, full, selected, levels, built, embedded,
      (valid.operator_eq acts selected built).trans embedded, fun before beforeDim => ?_⟩
    have same : full.dim = before.dim :=
      fullDim.trans (Except.ok.inj (total.symm.trans beforeDim))
    have nextDim : (full * before).dim = before.dim := same
    exact ⟨full * before, Operator.compose_eq_ok same, nextDim ▸ beforeDim⟩

theorem history_operator_total_copy :
    let register : Register := ⟨[2, 3], by decide, by decide⟩
    let shift : Instruction Float := .ofGate .x [⟨0⟩]
    let edits : List Edit := [.create "c" [2, 3], .append 0 shift, .append 0 (.ofGate .x [⟨5⟩]),
      .copy 0, .append 1 (.measure ⟨1⟩)]
    let first : Held Float := ⟨⟨"c", register, [shift]⟩, 1⟩
    let second : Held Float := ⟨⟨"c", register, [shift, .measure ⟨1⟩]⟩, 2⟩
    (history edits).held = [first, second] ∧
      (∃ u, first.circuit.operator = .ok u ∧ u.dim = 6) ∧
      second.circuit.operator = .error (.nonUnitary "measure") := by
  intro register shift edits first second
  have held : (history edits).held = [first, second] := rfl
  have firstTotal := history_operator_total edits first (by simp [held])
  have secondTotal := history_operator_total edits second (by simp [held])
  obtain ⟨u, built, total⟩ := (firstTotal.2.2 (by decide)).1 rfl
  have six : register.totalDimension = .ok 6 := rfl
  exact ⟨held, ⟨u, built, Except.ok.inj (total.symm.trans six)⟩,
    (secondTotal.2.2 (by decide)).2.1 rfl⟩

/-- A register of two qudits whose dimension fits in a word, but whose matrices do not fit in
memory: a circuit that measures it does not get as far as its measurement. -/
theorem measured_unaddressable :
    ∃ held, (history [.create "c" [2, 2147483648], .append 0 (.measure ⟨0⟩)]).held = [held] ∧
      product held.circuit.register.dims < wordLimit ∧
      held.circuit.hasMeasurement = true ∧
      held.circuit.operator = .error .outOfRange := by
  exact ⟨_, rfl, by decide, rfl, Circuit.operator_unaddressable (by decide)⟩

end Workspace
end QuditSynth
