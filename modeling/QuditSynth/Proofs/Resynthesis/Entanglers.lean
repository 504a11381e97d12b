import QuditSynth.Proofs.Resynthesis.Failures

namespace QuditSynth

/-! # Entanglers among local gates

A foreign gate on one qudit that comes before an entangler is compiled on its
own, but one that comes after it joins the window of the entangler. Where every
foreign gate is local, the layered search is therefore asked exactly for those
entanglers that such a gate follows, and all others stay as they are.
-/

variable {R : Type} {native : NativeSet} {instructions : List (Instruction R)}

/-- A native gate on two qudits. -/
def NativeSet.isEntangler (native : NativeSet) (instruction : Instruction R) : Bool :=
  native.isNative instruction && instruction.quditCount == 2

theorem NativeSet.isEntangler_iff {instruction : Instruction R} :
    native.isEntangler instruction = true ↔
      native.isNative instruction = true ∧ instruction.quditCount = 2 := by
  simp [isEntangler]

/-- A foreign gate follows an entangler, with nothing but gates on the qudits of the entangler
between them, and lies on these qudits itself. -/
def DrawnIn (native : NativeSet) (instructions : List (Instruction R)) : Prop :=
  ∃ before entangler between gate after,
    instructions = before ++ entangler :: (between ++ gate :: after) ∧
    native.isEntangler entangler = true ∧ native.isForeign gate = true ∧
    ∀ instruction ∈ between ++ [gate], instruction.isMeasure = false ∧
      ∀ qudit ∈ instruction.allQudits, qudit ∈ entangler.allQudits

namespace Window

variable {window joined : Window R} {instruction : Instruction R}

/-- What a window says about its gates: the flag whether one of them is not native and, where those
that are not lie on one qudit each, that a window on two qudits begins with native gates up to an
entangler on both of them. -/
structure Led (native : NativeSet) (window : Window R) : Prop where
  flag : window.foreign = window.instructions.any (!native.isNative ·)
  head : (∀ instruction ∈ window.instructions, native.isNative instruction = false →
      instruction.quditCount = 1) → window.qudits.length = 2 →
    ∃ head tail, window.instructions = head ++ tail ∧
      (∀ instruction ∈ head, native.isNative instruction = true) ∧
      ∃ entangler ∈ head, window.qudits = entangler.allQudits

theorem led_ofInstruction (native : NativeSet) (instruction : Instruction R) :
    Led native (.ofInstruction native instruction) where
  flag := by simp [ofInstruction]
  head := by
    intro alone pair
    have isNative : native.isNative instruction = true := by
      by_contra foreign
      have single := alone instruction (by simp [ofInstruction]) (by simpa using foreign)
      rw [Instruction.quditCount] at single
      simp [ofInstruction, single] at pair
    exact ⟨[instruction], [], rfl, by simpa using isNative, instruction, by simp, rfl⟩

/-- Only a native window grows onto the two qudits of a native gate. -/
theorem widen_native {qudits wider : List Qudit}
    (widened : window.widen qudits true = some wider) :
    wider = window.qudits ∨ (wider = qudits ∧ window.foreign = false) := by
  unfold widen at widened
  split at widened
  · exact Or.inl (Option.some.inj widened).symm
  · split at widened
    · split at widened
      · next joins =>
        simp only [Bool.not_true, Bool.false_or, Bool.and_eq_true, Bool.not_eq_true'] at joins
        exact Or.inr ⟨(Option.some.inj widened).symm, joins.2⟩
      · cases widened
    · cases widened

theorem Led.join (led : Led native window)
    (accepted : window.join native instruction = some joined) : Led native joined := by
  obtain ⟨extended, widened⟩ := join_eq_some accepted
  refine ⟨?_, fun alone pair => ?_⟩
  · obtain ⟨qudits, _, assembled⟩ := Option.bind_eq_some_iff.mp accepted
    obtain rfl := Option.some.inj assembled
    simp [led.flag]
  · have earlier : ∀ other ∈ window.instructions, native.isNative other = false →
        other.quditCount = 1 :=
      fun other member => alone other (by simp [extended, member])
    have kept : joined.qudits = window.qudits → ∃ head tail,
        joined.instructions = head ++ tail ∧
        (∀ instruction ∈ head, native.isNative instruction = true) ∧
        ∃ entangler ∈ head, joined.qudits = entangler.allQudits := by
      intro same
      obtain ⟨head, tail, parts, isNative, entangler, member, spans⟩ :=
        led.head earlier (same ▸ pair)
      exact ⟨head, tail ++ [instruction], by simp [extended, parts], isNative, entangler, member,
        same.trans spans⟩
    cases known : native.isNative instruction with
    | false =>
        -- A gate on one qudit that joins brings no qudit with it.
        have single := alone instruction (by simp [extended]) known
        rcases widen_eq_some widened with ⟨same, _⟩ | ⟨wider, _⟩
        · exact kept same
        · rw [wider] at pair
          rw [Instruction.quditCount] at single
          omega
    | true =>
        rw [known] at widened
        rcases widen_native widened with same | ⟨wider, pure⟩
        · exact kept same
        · rw [led.flag] at pure
          refine ⟨joined.instructions, [], by simp, ?_, instruction, by simp [extended], wider⟩
          simpa [extended, known, or_imp, forall_and] using pure

theorem led_of_mem_cut (cutOff : .window window ∈ cut native instructions) : Led native window :=
  window_of_cut (Led native) (led_ofInstruction native) (fun _ _ _ led accepted => led.join accepted)
    window cutOff

end Window

theorem NativeSet.isForeign_of_gate {instruction : Instruction R}
    (gate : instruction.isMeasure = false) :
    native.isForeign instruction = true ↔ native.isNative instruction = false := by
  simp [isForeign, instruction.isGate_eq_not_isMeasure, gate]

/-- A window on two qudits that holds a foreign gate was an entangler's before. -/
theorem drawnIn_of_mem_cut {window : Window R} {gate : Instruction R}
    (alone : ∀ instruction ∈ instructions, native.isForeign instruction = true →
      instruction.quditCount = 1)
    (cutOff : .window window ∈ cut native instructions) (pair : window.qudits.length = 2)
    (member : gate ∈ window.instructions) (foreign : native.isNative gate = false) :
    DrawnIn native instructions := by
  have sound := sound_of_mem_cut cutOff
  obtain ⟨head, tail, parts, isNative, entangler, leads, spans⟩ :=
    (Window.led_of_mem_cut cutOff).head (fun other inside known => alone other
      (mem_of_mem_cut cutOff inside)
      ((NativeSet.isForeign_of_gate (sound.gates other inside)).mpr known)) pair
  have late : gate ∈ tail := by
    rw [parts, List.mem_append] at member
    refine member.resolve_left fun early => ?_
    rw [isNative gate early] at foreign
    cases foreign
  obtain ⟨segmentsBefore, segmentsAfter, segments⟩ := List.append_of_mem cutOff
  obtain ⟨headBefore, headAfter, rfl⟩ := List.append_of_mem leads
  obtain ⟨tailBefore, tailAfter, rfl⟩ := List.append_of_mem late
  have whole := cut_instructions native instructions
  rw [segments, List.flatMap_append, List.flatMap_cons, Segment.instructions, parts] at whole
  refine ⟨segmentsBefore.flatMap Segment.instructions ++ headBefore, entangler,
    headAfter ++ tailBefore, gate, tailAfter ++ segmentsAfter.flatMap Segment.instructions,
    by rw [← whole]; simp, ?_, ?_, fun instruction between => ?_⟩
  · refine NativeSet.isEntangler_iff.mpr ⟨isNative entangler (by simp), ?_⟩
    rw [Instruction.quditCount, ← spans, pair]
  · exact (NativeSet.isForeign_of_gate (sound.gates gate (by simp [parts]))).mpr foreign
  · have inside : instruction ∈ window.instructions := by
      simp only [List.mem_append, List.mem_singleton] at between
      rcases between with (headed | tailed) | rfl <;> simp [*]
    exact ⟨sound.gates instruction inside, spans ▸ sound.covered instruction inside⟩

namespace Cutting

variable {cutting : Cutting R} {window : Window R} {instruction : Instruction R}

/-- After a gate the open window lies on its qudits. -/
theorem step_gate (native : NativeSet) (cutting : Cutting R)
    (gate : instruction.isMeasure = false) :
    ∃ window, (cutting.step native instruction).current = some window ∧
      instruction ∈ window.instructions ∧
      ∀ qudit ∈ instruction.allQudits, qudit ∈ window.qudits := by
  rcases step_cases native cutting instruction with
    ⟨measured, _⟩ | ⟨_, window, joined, _, accepted, stepped⟩ | ⟨_, stepped⟩
  · rw [gate] at measured
    cases measured
  · obtain ⟨extended, widened⟩ := Window.join_eq_some accepted
    refine ⟨joined, by rw [stepped], by simp [extended], ?_⟩
    rcases Window.widen_eq_some widened with ⟨same, inside⟩ | ⟨wider, _⟩
    · exact same ▸ inside
    · simp [wider]
  · exact ⟨.ofInstruction native instruction, by rw [stepped]; rfl, by simp [Window.ofInstruction],
      by simp [Window.ofInstruction]⟩

/-- Gates on the qudits of the open window join it. -/
theorem run_inside (native : NativeSet) (current : cutting.current = some window)
    (inside : ∀ instruction ∈ instructions, instruction.isMeasure = false ∧
      ∀ qudit ∈ instruction.allQudits, qudit ∈ window.qudits) :
    ∃ joined, (instructions.foldl (step native) cutting).current = some joined ∧
      joined.qudits = window.qudits ∧
      joined.instructions = window.instructions ++ instructions := by
  induction instructions generalizing cutting window with
  | nil => exact ⟨window, current, rfl, by simp⟩
  | cons instruction instructions ih =>
      obtain ⟨⟨gate, within⟩, rest⟩ := List.forall_mem_cons.mp inside
      have widened : window.widen instruction.allQudits (native.isNative instruction) =
          some window.qudits := by
        unfold Window.widen
        rw [if_pos (by simpa using within)]
      have stepped : (cutting.step native instruction).current =
          some ⟨window.qudits, window.instructions ++ [instruction],
            window.foreign || !native.isNative instruction⟩ := by
        simp [step, gate, current, Window.join, widened]
      obtain ⟨joined, last, qudits, held⟩ := ih stepped rest
      exact ⟨joined, last, qudits, by simp [held]⟩

theorem mem_segments_of_current (current : cutting.current = some window) :
    .window window ∈ cutting.segments := by
  simp [segments, current]

/-- A window is never taken apart again. -/
theorem run_keeps (native : NativeSet) (instructions : List (Instruction R))
    (present : .window window ∈ cutting.segments) :
    ∃ later, .window later ∈ (instructions.foldl (step native) cutting).segments ∧
      window.instructions ⊆ later.instructions ∧ window.qudits ⊆ later.qudits := by
  induction instructions generalizing cutting window with
  | nil => exact ⟨window, present, List.Subset.refl _, List.Subset.refl _⟩
  | cons instruction instructions ih =>
      suffices stepped : ∃ next, .window next ∈ (cutting.step native instruction).segments ∧
          window.instructions ⊆ next.instructions ∧ window.qudits ⊆ next.qudits by
        obtain ⟨next, among, held, on⟩ := stepped
        obtain ⟨later, last, heldLater, onLater⟩ := ih among
        exact ⟨later, last, List.Subset.trans held heldLater, List.Subset.trans on onLater⟩
      rcases step_cases native cutting instruction with
        ⟨_, stepped⟩ | ⟨_, old, joined, current, accepted, stepped⟩ | ⟨_, stepped⟩
      · refine ⟨window, ?_, List.Subset.refl _, List.Subset.refl _⟩
        rw [stepped]
        exact List.mem_append_left _ (List.mem_append_left _ present)
      · simp only [segments, current, Option.toList_some, List.map_cons, List.map_nil,
          List.mem_append, List.mem_singleton, Segment.window.injEq] at present
        rcases present with closed | rfl
        · exact ⟨window, by simp [stepped, segments, closed], List.Subset.refl _,
            List.Subset.refl _⟩
        · obtain ⟨extended, widened⟩ := Window.join_eq_some accepted
          refine ⟨joined, by simp [stepped, segments], by simp [extended], ?_⟩
          rcases Window.widen_eq_some widened with ⟨same, _⟩ | ⟨wider, brought⟩
          · simp [same]
          · exact wider ▸ brought
      · refine ⟨window, ?_, List.Subset.refl _, List.Subset.refl _⟩
        rw [stepped]
        exact List.mem_append_left _ present

end Cutting

/-- A foreign gate that follows an entangler on its qudits shares a window with it. -/
theorem window_of_drawnIn (drawn : DrawnIn native instructions) :
    ∃ window entangler gate, .window window ∈ cut native instructions ∧
      entangler ∈ instructions ∧ native.isEntangler entangler = true ∧
      gate ∈ window.instructions ∧ native.isNative gate = false ∧
      entangler.allQudits ⊆ window.qudits := by
  obtain ⟨before, entangler, between, gate, after, rfl, entangles, foreign, inside⟩ := drawn
  have isGate : entangler.isMeasure = false := by
    have isNative := (NativeSet.isEntangler_iff.mp entangles).1
    cases kind : entangler.isMeasure with
    | false => rfl
    | true => simp [NativeSet.isNative, Option.isNone_iff_eq_none.mp kind] at isNative
  obtain ⟨opened, current, _, on⟩ :=
    Cutting.step_gate native (before.foldl (Cutting.step native) {}) isGate
  obtain ⟨joined, currentJoined, qudits, held⟩ := Cutting.run_inside native current
    fun instruction among => ⟨(inside instruction among).1,
      fun qudit touched => on qudit ((inside instruction among).2 qudit touched)⟩
  obtain ⟨window, last, holds, lies⟩ := Cutting.run_keeps native after
    (Cutting.mem_segments_of_current currentJoined)
  have gateForeign := (NativeSet.isForeign_of_gate (inside gate (by simp)).1).mp foreign
  refine ⟨window, entangler, gate, ?_, by simp, entangles, holds (by simp [held]), gateForeign,
    fun qudit touched => lies (qudits ▸ on qudit touched)⟩
  simpa [cut, List.foldl_append] using last

namespace Resynthesis

variable [Scalar R] [Exponential R] {target : Target R} {circuit : Circuit R}
  {register : Register} {window : Window R}

/-- Only a window on two qudits that is not native is handed to the search. -/
theorem realize_unsearched (synthesizer other : Synthesizer R)
    (unsearched : ∀ gate ∈ window.instructions, target.native.isNative gate = false →
      window.qudits.length ≠ 2) :
    realize synthesizer target register window = realize other target register window := by
  cases found : window.instructions.find? (!target.native.isNative ·) with
  | none => rw [realize, realize, found]
  | some offender =>
      have apart := unsearched offender (List.mem_of_find?_eq_some found)
        (by simpa using List.find?_some found)
      rcases shape : window.qudits with _ | ⟨first, _ | ⟨second, _ | _⟩⟩
      · simp only [realize, found, shape]
      · simp only [realize, found, shape]
      · simp [shape] at apart
      · simp only [realize, found, shape]

/-- A window of several qudits that is not native is lost with the search. -/
theorem realize_refused {gate : Instruction R} (member : gate ∈ window.instructions)
    (foreign : target.native.isNative gate = false) (broad : 2 ≤ window.qudits.length)
    (cause : CompileError R) (sequence : List (Instruction R)) :
    realize (fun _ _ _ => .error cause) target register window ≠ .ok sequence := by
  intro realized
  cases found : window.instructions.find? (!target.native.isNative ·) with
  | none =>
      have native := List.find?_eq_none.mp found gate member
      simp [foreign] at native
  | some offender =>
      rcases shape : window.qudits with _ | ⟨first, _ | ⟨second, _ | _⟩⟩
      · simp [shape] at broad
      · simp [shape] at broad
      · rw [realize_two found _ shape] at realized
        obtain ⟨_, _, realized⟩ := Outcome.bind_eq_ok_iff.mp realized
        obtain ⟨_, _, realized⟩ := Outcome.bind_eq_ok_iff.mp realized
        obtain ⟨_, _, realized⟩ := Outcome.bind_eq_ok_iff.mp realized
        cases realized
      · simp only [realize, found, shape] at realized
        cases realized

/-- The search that refuses the first window of a circuit decides how its compilation ends. -/
theorem compileWith_first_refused {synthesizer : Synthesizer R} {rest : List (Segment R)}
    {offender : Instruction R} {first second : Qudit} {n m : Nat} {u : Operator R}
    {cause : CompileError R}
    (cutOff : cut target.native circuit.instructions = .window window :: rest)
    (found : window.instructions.find? (!target.native.isNative ·) = some offender)
    (pair : window.qudits = [first, second])
    (built : window.operator circuit.register = .ok u)
    (firstDim : circuit.register.dimensionOf first = .ok n)
    (secondDim : circuit.register.dimensionOf second = .ok m)
    (refused : synthesizer (target.familyFor first second) u (n, m) = .error cause) :
    compileWith synthesizer target circuit = .error cause := by
  have lost : realize synthesizer target circuit.register window = .error cause := by
    rw [realize_two found _ pair, built, firstDim, secondDim]
    change (synthesizer (target.familyFor first second) u (n, m) >>= _) = _
    rw [refused, Outcome.error_bind]
  rw [compileWith, cutOff, List.mapM_cons, realizeSegment, lost]
  rfl

theorem compileWith_unsearched (synthesizer other : Synthesizer R)
    (unsearched : ∀ window, .window window ∈ cut target.native circuit.instructions →
      ∀ gate ∈ window.instructions, target.native.isNative gate = false →
        window.qudits.length ≠ 2) :
    compileWith synthesizer target circuit = compileWith other target circuit := by
  have same : (cut target.native circuit.instructions).mapM
      (realizeSegment synthesizer target circuit.register) =
        (cut target.native circuit.instructions).mapM
          (realizeSegment other target circuit.register) := by
    refine Outcome.mapM_congr fun segment cutOff => ?_
    cases segment with
    | measurement instruction => rfl
    | window window => exact realize_unsearched synthesizer other (unsearched window cutOff)
  rw [compileWith, compileWith, same]

section Local

variable (wellFormed : circuit.WellFormed)

include wellFormed

/-- Of the entanglers of a segment none is lost or added unless the search replaces it. -/
theorem realizeSegment_entanglers {segment : Segment R} {sequence : List (Instruction R)}
    (cutOff : segment ∈ cut target.native circuit.instructions)
    (unsearched : ∀ window, segment = .window window → ∀ gate ∈ window.instructions,
      target.native.isNative gate = false → window.qudits.length ≠ 2)
    (realized : realizeSegment (Search.synthesizeWith target.config) target circuit.register
      segment = .ok sequence) :
    sequence.filter target.native.isEntangler =
      segment.instructions.filter target.native.isEntangler := by
  have valid := valid_of_mem_cut wellFormed cutOff
  cases segment with
  | measurement instruction =>
      cases realized
      rfl
  | window window =>
      rw [realizeSegment] at realized
      cases found : window.instructions.find? (!target.native.isNative ·) with
      | none =>
          rw [realize, found] at realized
          cases realized
          rfl
      | some offender =>
          have apart := unsearched window rfl offender (List.mem_of_find?_eq_some found)
            (by simpa using List.find?_some found)
          rcases shape : window.qudits with _ | ⟨qudit, _ | ⟨second, _ | _⟩⟩
          · simp only [realize, found, shape] at realized
            cases realized
          · rw [realize_one found _ shape] at realized
            obtain ⟨u, _, decomposed⟩ := Outcome.bind_eq_ok_iff.mp realized
            have onto := ((decomposeSingleQudit_delivers u qudit).value decomposed).2
            have noneLeft : sequence.filter target.native.isEntangler = [] := by
              refine List.filter_eq_nil_iff.mpr fun instruction member entangles => ?_
              have pair := (NativeSet.isEntangler_iff.mp entangles).2
              simp [Instruction.quditCount, onto instruction member] at pair
            have noneThere : window.instructions.filter target.native.isEntangler = [] := by
              refine List.filter_eq_nil_iff.mpr fun instruction member entangles => ?_
              have pair := (NativeSet.isEntangler_iff.mp entangles).2
              have inside : instruction.allQudits ⊆ [qudit] :=
                shape ▸ (sound_of_mem_cut cutOff).covered instruction member
              have few := ((valid instruction member).distinct.subperm inside).length_le
              rw [Instruction.quditCount] at pair
              simp [pair] at few
            exact noneLeft.trans noneThere.symm
          · simp [shape] at apart
          · simp only [realize, found, shape] at realized
            cases realized

/-- A search that refuses everything is noticed wherever an entangler is drawn in. -/
theorem compileWith_refused (cause : CompileError R)
    (drawn : DrawnIn target.native circuit.instructions) :
    ∃ failure, compileWith (fun _ _ _ => .error cause) target circuit = .error failure := by
  obtain ⟨window, entangler, gate, cutOff, present, entangles, member, foreign, inside⟩ :=
    window_of_drawnIn drawn
  have broad : 2 ≤ window.qudits.length := by
    have pair := (NativeSet.isEntangler_iff.mp entangles).2
    have fewer := ((wellFormed entangler present).distinct.subperm inside).length_le
    rwa [← Instruction.quditCount, pair] at fewer
  cases compiled : compileWith (fun _ _ _ => .error cause) target circuit with
  | error failure => exact ⟨failure, rfl⟩
  | ok out =>
      obtain ⟨sequences, realized, _⟩ := Outcome.bind_eq_ok_iff.mp compiled
      obtain ⟨sequence, made⟩ := Outcome.mapM_each realized _ cutOff
      exact absurd made (realize_refused member foreign broad cause sequence)

end Local

/-- Where every foreign gate of a circuit that edits can produce lies on one qudit and none follows
an entangler on its qudits, the layered search has no part in the compilation and all entanglers
stay as they are, in their order. Where one does follow an entangler, nothing is compiled without
the search. -/
theorem compile_entanglers (target : Target Float) (edits : List Edit) (held : Held Float)
    (reached : held ∈ (Workspace.history edits).held)
    (alone : ∀ instruction ∈ held.circuit.instructions,
      target.native.isForeign instruction = true → instruction.quditCount = 1) :
    let circuit := held.circuit
    (¬ DrawnIn target.native circuit.instructions →
      (∀ synthesizer, compileWith synthesizer target circuit = compile target circuit) ∧
      ∀ out, compile target circuit = .ok out →
        out.instructions.filter target.native.isEntangler =
          circuit.instructions.filter target.native.isEntangler) ∧
    (DrawnIn target.native circuit.instructions → ∀ cause, ∃ failure,
      compileWith (fun _ _ _ => .error cause) target circuit = .error failure) := by
  intro circuit
  have wellFormed : circuit.WellFormed := Workspace.wellFormed_history edits held reached
  refine ⟨fun free => ?_, fun drawn cause => compileWith_refused wellFormed cause drawn⟩
  have unsearched : ∀ window, .window window ∈ cut target.native circuit.instructions →
      ∀ gate ∈ window.instructions, target.native.isNative gate = false →
        window.qudits.length ≠ 2 :=
    fun window cutOff gate member foreign pair =>
      free (drawnIn_of_mem_cut alone cutOff pair member foreign)
  refine ⟨fun synthesizer => compileWith_unsearched synthesizer _ unsearched, fun out compiled => ?_⟩
  refine compile_filter (fun segment cutOff sequence realized => ?_) compiled
  exact realizeSegment_entanglers wellFormed cutOff
    (fun window same => unsearched window (same ▸ cutOff)) realized

/-- A shift before a coupling, and one that is refused after it. -/
theorem compile_entanglers_shift :
    let target : Target Float := { config := .standard }
    let register : Register := ⟨[2, 2], by decide, by decide⟩
    let shift : Instruction Float := .ofGate .x [⟨0⟩]
    let coupling : Instruction Float := .ofGate (.ms 0.7) [⟨0⟩, ⟨1⟩]
    let held : Held Float := ⟨⟨"c", register, [shift, coupling]⟩, 2⟩
    let edits : List Edit := [.create "c" [2, 2], .append 0 shift, .append 0 coupling,
      .append 0 (.ofGate .x [⟨2⟩])]
    held ∈ (Workspace.history edits).held ∧
      (∀ instruction ∈ held.circuit.instructions, target.native.isForeign instruction = true →
        instruction.quditCount = 1) ∧
      ¬ DrawnIn target.native held.circuit.instructions ∧
      ∃ out, compile target held.circuit = .ok out ∧
        (∀ synthesizer, compileWith synthesizer target held.circuit = .ok out) ∧
        out.instructions.filter target.native.isEntangler = [coupling] := by
  intro target register shift coupling held edits
  have reached : held ∈ (Workspace.history edits).held := List.mem_singleton.mpr rfl
  have wellFormed : held.circuit.WellFormed := Workspace.wellFormed_history edits held reached
  have alone : ∀ instruction ∈ held.circuit.instructions,
      target.native.isForeign instruction = true → instruction.quditCount = 1 :=
    List.forall_mem_cons.mpr ⟨fun _ => rfl, List.forall_mem_singleton.mpr nofun⟩
  have free : ¬ DrawnIn target.native held.circuit.instructions := by
    intro drawn
    obtain ⟨before, entangler, between, gate, after, parts, entangles, _, _⟩ := drawn
    rcases before with _ | ⟨first, _ | ⟨second, before⟩⟩
    · obtain ⟨rfl, _⟩ := List.cons.inj parts
      cases entangles
    · simp [held] at parts
    · have longer := congrArg List.length parts
      simp [held] at longer
  let window : Window Float := .ofInstruction target.native shift
  have cutOff : cut target.native held.circuit.instructions =
      [.window window, .window (.ofInstruction target.native coupling)] := rfl
  have among : .window window ∈ cut target.native held.circuit.instructions := by simp [cutOff]
  obtain ⟨u, built, dim⟩ := Window.operator_exists (sound_of_mem_cut among)
    (valid_of_mem_cut wellFormed among) (by decide)
  have unitary : u.isUnitary (Operator.unitarityTolerance * 1e3) = true := by
    have checked : ((window.operator register).toOption.map fun u =>
        u.isUnitary (Operator.unitarityTolerance * 1e3)) = some true := by decide +kernel
    rw [Outcome.toOption_eq_some_iff.mpr built] at checked
    exact Option.some.inj checked
  have realized : ∃ sequence, realize (Search.synthesizeWith target.config) target register window =
      .ok sequence ∧ ∀ instruction ∈ sequence, instruction.Valid register := by
    have found : window.instructions.find? (!target.native.isNative ·) = some shift := rfl
    rw [realize_one found _ rfl, built]
    exact decomposeSingleQudit_exists unitary (by decide) dim
  have compiles : ∃ out, compile target held.circuit = .ok out := by
    refine compile_exists (List.forall_mem_cons.mpr ⟨realized, List.forall_mem_singleton.mpr
      ⟨[coupling], rfl, ?_⟩⟩)
    exact List.forall_mem_singleton.mpr (wellFormed coupling (by simp [held]))
  obtain ⟨out, compiled⟩ := compiles
  obtain ⟨unsearched, kept⟩ := (compile_entanglers target edits held reached alone).1 free
  exact ⟨reached, alone, free, out, compiled, fun synthesizer =>
    (unsearched synthesizer).trans compiled, kept out compiled⟩

/-- A local gate after a coupling: the search is asked for both together, so that it fails with the
search, be it for a configuration without layers. -/
theorem coupling_drawn_in :
    let register : Register := ⟨[2, 2], by decide, by decide⟩
    let coupling : Instruction Float := .ofGate (.ms 0.7) [⟨0⟩, ⟨1⟩]
    let mixer : Instruction Float := .ofGate .h [⟨0⟩]
    let circuit : Circuit Float := ⟨"c", register, [coupling, mixer]⟩
    (Workspace.history [.create "c" [2, 2], .append 0 coupling, .append 0 mixer]).held =
        [⟨circuit, 2⟩] ∧
      (∀ instruction ∈ circuit.instructions, NativeSet.standard.isForeign instruction = true →
        instruction.quditCount = 1) ∧
      (∀ config cause, compileWith (fun _ _ _ => .error cause) { config } circuit =
        .error cause) ∧
      compile { config := { Config.standard with maxLayers := 0 } } circuit =
        .error (.config .noLayers) := by
  intro register coupling mixer circuit
  have reached : (Workspace.history [.create "c" [2, 2], .append 0 coupling,
      .append 0 mixer]).held = [⟨circuit, 2⟩] := rfl
  have wellFormed : circuit.WellFormed :=
    Workspace.wellFormed_history _ ⟨circuit, 2⟩ (reached ▸ List.mem_singleton_self _)
  let window : Window Float := ⟨[⟨0⟩, ⟨1⟩], [coupling, mixer], true⟩
  have cutOff : cut .standard circuit.instructions = [.window window] := rfl
  have among : .window window ∈ cut .standard circuit.instructions := by
    rw [cutOff]
    exact List.mem_singleton_self _
  obtain ⟨u, built, _⟩ := Window.operator_exists (sound_of_mem_cut among)
    (valid_of_mem_cut wellFormed among) (by decide)
  have asked : ∀ (config : Config Float) (synthesizer : Synthesizer Float) (cause),
      synthesizer (Target.familyFor { config } ⟨0⟩ ⟨1⟩) u (2, 2) = .error cause →
        compileWith synthesizer { config } circuit = .error cause :=
    fun config synthesizer cause => compileWith_first_refused cutOff rfl rfl built rfl rfl
  refine ⟨reached, ?_, fun config cause => asked config _ cause rfl, asked _ _ _ ?_⟩
  · exact List.forall_mem_cons.mpr ⟨nofun, List.forall_mem_singleton.mpr fun _ => rfl⟩
  · have refused : ({ Config.standard with maxLayers := 0 } : Config Float).validate =
        .error .noLayers := by decide +kernel
    rw [Search.synthesizeWith, refused]
    rfl

end Resynthesis
end QuditSynth
