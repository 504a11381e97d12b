import QuditSynth.Proofs.Circuit.Storage

namespace QuditSynth.Store

/-! # Circuits that share a cell

Circuits that lie in one cell are copies of each other to which nothing was added
since. An instruction that is added to one of them is not seen by the others, and
the others go on sharing.
-/

/-- The edit adds an instruction to the circuit. -/
def AddsTo (store : Store Float) (change : Edit) (number : Nat) : Prop :=
  ∃ instruction next, change = .append number instruction ∧
    (append number instruction).run store = .ok () next

/-- The circuit is what became of an earlier one: it was copied from it, perhaps through other
copies, and on the way nothing was added. -/
inductive Descends (start : Store Float) (source : Nat) : List Edit → Nat → Prop
  | self (present : source < start.size) : Descends start source [] source
  | kept {edits : List Edit} {change : Edit} {number : Nat}
      (earlier : Descends start source edits number)
      (untouched : ¬ (edits.foldl edit start).AddsTo change number) :
      Descends start source (edits ++ [change]) number
  | copied {edits : List Edit} {number : Nat} (earlier : Descends start source edits number) :
      Descends start source (edits ++ [.copy number]) (edits.foldl edit start).size

/-- What an edit can do to a store. -/
inductive Effect (store : Store Float) : Edit → Store Float → Prop
  | refused {change : Edit} (untouched : ∀ number, ¬ store.AddsTo change number) :
      Effect store change store
  | added {change : Edit} (circuit : Circuit Float)
      (untouched : ∀ number, ¬ store.AddsTo change number) :
      Effect store change (store.add circuit)
  | shared {number : Nat} {handle : Handle} (present : store.handles[number]? = some handle) :
      Effect store (.copy number) (store.share handle (List.mem_of_getElem? present))
  | appended {number : Nat} {instruction : Instruction Float} {longer : Circuit Float}
      {next : Store Float} (made : store.appended number instruction = .ok longer)
      (ran : (append number instruction).run store = .ok () next)
      (size : next.size = store.size)
      (circuits : next.circuit = Function.update store.circuit number (.ok longer))
      (alone : next.Alone number)
      (kept : ∀ other, other ≠ number → next.cellOf other = store.cellOf other) :
      Effect store (.append number instruction) next

variable {store : Store Float} {start : Store Float} {source number : Nat} {edits : List Edit}

theorem not_addsTo_of_append {change : Edit}
    (other : ∀ number instruction, change ≠ .append number instruction) (number : Nat) :
    ¬ store.AddsTo change number := by
  rintro ⟨instruction, _, same, _⟩
  exact other number instruction same

theorem effect_edit (store : Store Float) (change : Edit) :
    store.Effect change (store.edit change) := by
  cases change with
  | create name dims =>
      have untouched : ∀ number, ¬ store.AddsTo (.create name dims) number :=
        not_addsTo_of_append (by simp)
      simp only [edit]
      cases (Circuit.ofDims name dims : Except Error (Circuit Float)) with
      | error cause => exact .refused untouched
      | ok circuit => exact .added circuit untouched
  | createOn name register => exact .added _ (not_addsTo_of_append (by simp))
  | append number instruction =>
      simp only [edit, after]
      cases made : store.appended number instruction with
      | error cause =>
          have refused := run_append_refused made
          rw [refused]
          refine .refused ?_
          rintro other ⟨_, next, same, ran⟩
          cases same
          rw [refused] at ran
          cases ran
      | ok longer =>
          obtain ⟨next, ran, size, circuits, alone, kept⟩ := run_append_made made
          rw [ran]
          exact .appended made ran size circuits alone kept
  | replace number instructions =>
      have untouched : ∀ other, ¬ store.AddsTo (.replace number instructions) other :=
        not_addsTo_of_append (by simp)
      simp only [edit, after]
      cases made : store.replaced number instructions with
      | error cause =>
          rw [run_withInstructions_refused made]
          exact .refused untouched
      | ok circuit =>
          rw [run_withInstructions_made made]
          exact .added circuit untouched
  | copy number =>
      simp only [edit, after]
      cases present : store.handles[number]? with
      | none =>
          rw [run_copy_none present]
          exact .refused (not_addsTo_of_append (by simp))
      | some handle =>
          rw [run_copy present]
          exact .shared present
  | load text =>
      have untouched : ∀ number, ¬ store.AddsTo (.load text) number :=
        not_addsTo_of_append (by simp)
      simp only [edit]
      cases Circuit.read text with
      | error cause => exact .refused untouched
      | ok circuit => exact .added circuit untouched

/-- A circuit to which an edit adds nothing stays what it is, where it is. -/
theorem edit_frame (change : Edit) (present : number < store.size)
    (untouched : ¬ store.AddsTo change number) :
    number < (store.edit change).size ∧ (store.edit change).cellOf number = store.cellOf number ∧
      (store.edit change).circuit number = store.circuit number := by
  have old : number ≠ store.size := Nat.ne_of_lt present
  have effect := store.effect_edit change
  generalize store.edit change = next at effect ⊢
  cases effect with
  | refused _ => exact ⟨present, rfl, rfl⟩
  | added circuit _ =>
      rw [size_add, cellOf_add, circuit_add, Function.update_of_ne old, Function.update_of_ne old]
      exact ⟨Nat.lt_succ_of_lt present, rfl, rfl⟩
  | shared copied =>
      rw [cellOf_share copied, circuit_share copied, Function.update_of_ne old,
        Function.update_of_ne old]
      exact ⟨by simpa [size, share] using Nat.lt_succ_of_lt present, rfl, rfl⟩
  | appended made ran size circuits alone kept =>
      have apart : number ≠ _ := fun same => untouched (same ▸ ⟨_, _, rfl, ran⟩)
      rw [size, circuits, Function.update_of_ne apart]
      exact ⟨present, kept number apart, rfl⟩

theorem edit_copy (present : number < store.size) :
    (store.edit (.copy number)).size = store.size + 1 ∧
      (store.edit (.copy number)).cellOf =
        Function.update store.cellOf store.size (store.cellOf number) := by
  have found : store.handles[number]? = some store.handles[number] :=
    List.getElem?_eq_getElem present
  rw [edit, after, run_copy found]
  exact ⟨by simp [size, share], cellOf_share found⟩

/-- Whatever came of a circuit without additions lies in its cell. -/
theorem Descends.cellOf (descends : Descends start source edits number) :
    number < (edits.foldl edit start).size ∧
      (edits.foldl edit start).cellOf number = start.cellOf source := by
  induction descends with
  | self present => exact ⟨present, rfl⟩
  | kept earlier untouched ih =>
      obtain ⟨present, cell⟩ := ih
      obtain ⟨still, same, _⟩ := edit_frame _ present untouched
      rw [List.foldl_append]
      exact ⟨still, same.trans cell⟩
  | copied earlier ih =>
      obtain ⟨present, cell⟩ := ih
      obtain ⟨size, cells⟩ := edit_copy present
      simp only [List.foldl_append, List.foldl_cons, List.foldl_nil, size, cells,
        Function.update_self]
      exact ⟨Nat.lt_succ_self _, cell⟩

/-- Both circuits came of one circuit by copying, and nothing was added to them on the way. -/
def Siblings (edits : List Edit) (first second : Nat) : Prop :=
  ∃ before later source, edits = before ++ later ∧
    Descends (history before) source later first ∧ Descends (history before) source later second

theorem siblings_self (present : number < (history edits).size) : Siblings edits number number :=
  ⟨edits, [], number, by simp, .self present, .self present⟩

theorem history_append (before later : List Edit) :
    history (before ++ later) = later.foldl edit (history before) := by
  simp [history]

theorem Siblings.kept {first second : Nat} {change : Edit} (siblings : Siblings edits first second)
    (firstUntouched : ¬ (history edits).AddsTo change first)
    (secondUntouched : ¬ (history edits).AddsTo change second) :
    Siblings (edits ++ [change]) first second := by
  obtain ⟨before, later, source, rfl, descends, descendsToo⟩ := siblings
  rw [history_append] at firstUntouched secondUntouched
  exact ⟨before, later ++ [change], source, by simp, descends.kept firstUntouched,
    descendsToo.kept secondUntouched⟩

theorem siblings_copy {first second : Nat} (present : number < (history edits).size)
    (siblings : Siblings edits (if first = (history edits).size then number else first)
      (if second = (history edits).size then number else second)) :
    Siblings (edits ++ [.copy number]) first second := by
  obtain ⟨before, later, source, rfl, descends, descendsToo⟩ := siblings
  rw [history_append] at descends descendsToo present
  have extended : ∀ other, Descends (history before) source later
      (if other = (later.foldl edit (history before)).size then number else other) →
      Descends (history before) source (later ++ [.copy number]) other := by
    intro other descends
    split at descends
    · next last =>
      rw [last]
      exact descends.copied
    · exact descends.kept (not_addsTo_of_append (by simp) other)
  exact ⟨before, later ++ [.copy number], source, by simp, extended first descends,
    extended second descendsToo⟩

theorem siblings_of_cellOf {first second : Nat} (present : first < (history edits).size)
    (presentToo : second < (history edits).size)
    (same : (history edits).cellOf first = (history edits).cellOf second) :
    Siblings edits first second := by
  induction edits using List.reverseRecOn generalizing first second with
  | nil => simp [history, size] at present
  | append_singleton edits change ih =>
      by_cases equal : first = second
      · subst equal
        exact siblings_self present
      rw [history_append, List.foldl_cons, List.foldl_nil] at present presentToo same
      have effect := (history edits).effect_edit change
      generalize (history edits).edit change = next at effect present presentToo same
      cases effect with
      | refused untouched =>
          exact (ih present presentToo same).kept (untouched first) (untouched second)
      | added circuit untouched =>
          rw [size_add] at present presentToo
          rw [cellOf_add] at same
          have new := (history edits).cellOf_ne_new
          have older : first < (history edits).size ∧ second < (history edits).size := by
            by_cases last : first = (history edits).size
            · rw [last, Function.update_self, Function.update_of_ne (by omega)] at same
              exact absurd same.symm (new second)
            · by_cases lastToo : second = (history edits).size
              · rw [lastToo, Function.update_self, Function.update_of_ne last] at same
                exact absurd same (new first)
              · omega
          rw [Function.update_of_ne (by omega), Function.update_of_ne (by omega)] at same
          exact (ih older.1 older.2 same).kept (untouched first) (untouched second)
      | @shared number handle held =>
          have within : number < (history edits).size := (List.getElem?_eq_some_iff.mp held).1
          rw [cellOf_share held] at same
          have size : ∀ other, other < ((history edits).share handle
              (List.mem_of_getElem? held)).size → other < (history edits).size + 1 := by
            simp [Store.size, share]
          refine siblings_copy within (ih ?_ ?_ ?_)
          · have := size first present
            split <;> omega
          · have := size second presentToo
            split <;> omega
          · simp only [Function.update_apply] at same
            split at same <;> split at same <;> simp_all
      | @appended number instruction longer next made ran size circuits alone kept =>
          rw [size] at present presentToo
          have apart : first ≠ number ∧ second ≠ number := by
            constructor
            · rintro rfl
              exact alone second (Ne.symm equal) same.symm
            · rintro rfl
              exact alone first equal same
          rw [kept first apart.1, kept second apart.2] at same
          have untouched : ∀ other, other ≠ number →
              ¬ (history edits).AddsTo (.append number instruction) other := by
            rintro other differs ⟨_, _, same, _⟩
            cases same
            exact differs rfl
          exact (ih present presentToo same).kept (untouched first apart.1)
            (untouched second apart.2)

theorem shares_iff_siblings {first second : Nat} (present : first < (history edits).size)
    (presentToo : second < (history edits).size) :
    (history edits).shares first second = .ok true ↔ Siblings edits first second := by
  rw [shares_eq_true_iff]
  constructor
  · rintro ⟨_, _, same⟩
    exact siblings_of_cellOf present presentToo same
  · rintro ⟨before, later, source, rfl, descends, descendsToo⟩
    refine ⟨present, presentToo, ?_⟩
    rw [history_append, descends.cellOf.2, descendsToo.cellOf.2]

theorem shares_congr {first second : Nat} {next : Store Float} (size : next.size = store.size)
    (sameFirst : next.cellOf first = store.cellOf first)
    (sameSecond : next.cellOf second = store.cellOf second) :
    next.shares first second = store.shares first second := by
  rw [shares_eq, shares_eq, size, sameFirst, sameSecond]

theorem append_accepted {instruction : Instruction Float} {next : Store Float}
    (ran : (append number instruction).run store = .ok () next) :
    (∃ circuit, store.circuit number = .ok circuit ∧
      instruction.validate circuit.register = .ok () ∧
      next.circuit = Function.update store.circuit number
        (.ok { circuit with instructions := circuit.instructions ++ [instruction] })) ∧
    next.size = store.size ∧ next.Alone number ∧
    ∀ other, other ≠ number → next.cellOf other = store.cellOf other := by
  cases made : store.appended number instruction with
  | error cause =>
      rw [run_append_refused made] at ran
      cases ran
  | ok longer =>
      obtain ⟨reached, ranThere, size, circuits, alone, kept⟩ := run_append_made made
      rw [ran] at ranThere
      cases ranThere
      obtain ⟨circuit, found, appended⟩ := Outcome.bind_eq_ok_iff.mp made
      obtain ⟨valid, longerEq⟩ := Outcome.check_bind_eq_ok_iff.mp appended
      cases longerEq
      exact ⟨⟨circuit, found, valid, circuits⟩, size, alone, kept⟩

theorem append_rejected {instruction : Instruction Float} {cause : Error} {next : Store Float}
    (ran : (append number instruction).run store = .error cause next) : next = store := by
  cases made : store.appended number instruction with
  | error reason =>
      rw [run_append_refused made] at ran
      cases ran
      rfl
  | ok longer =>
      obtain ⟨_, ranThere, _⟩ := run_append_made made
      rw [ran] at ranThere
      cases ranThere

/-- After any edits, an instruction that is added to a circuit stands at its end and is seen by no
other circuit. The circuit shares with no other from then on, while the others go on sharing. An
instruction that is refused changes nothing, and neither does a circuit with other instructions
change the one it is made from. Two circuits share if and only if they came of one circuit by
copying, with nothing added to them on the way. -/
theorem history_isolation (edits : List Edit) :
    let store := history edits
    (∀ number instruction next, (append number instruction).run store = .ok () next →
      next.size = store.size ∧
      (∃ circuit, store.circuit number = .ok circuit ∧ next.circuit number =
        .ok { circuit with instructions := circuit.instructions ++ [instruction] }) ∧
      (∀ other, other ≠ number → next.circuit other = store.circuit other ∧
        next.shares number other ≠ .ok true) ∧
      ∀ first second, first ≠ number → second ≠ number →
        next.shares first second = store.shares first second) ∧
    (∀ number instruction cause next,
      (append number instruction).run store = .error cause next → next = store) ∧
    (∀ number instructions cause next,
      (withInstructions number instructions).run store = .error cause next → next = store) ∧
    (∀ number instructions next, (withInstructions number instructions).run store = .ok () next →
      (∃ circuit, store.circuit number = .ok circuit ∧
        next.circuit store.size = .ok { circuit with instructions }) ∧
      (∀ other, other < store.size → next.circuit other = store.circuit other) ∧
      ∀ first second, first < store.size → second < store.size →
        next.shares first second = store.shares first second) ∧
    (∀ first second, first < store.size → second < store.size →
      (store.shares first second = .ok true ↔ first = second ∨
        ∃ before later source, edits = before ++ later ∧
          Descends (history before) source later first ∧
          Descends (history before) source later second)) ∧
    (∀ number, store.circuit number = (Workspace.history edits).circuit number) ∧
    ∀ first second, store.shares first second = (Workspace.history edits).shares first second := by
  intro store
  have represents := represents_history edits
  refine ⟨fun number instruction next ran => ?_, fun _ _ _ _ => append_rejected, ?_, ?_,
    fun first second present presentToo => ?_, fun number => congrFun represents.circuit number,
    represents.shares⟩
  · obtain ⟨⟨circuit, found, _, circuits⟩, size, alone, kept⟩ := append_accepted ran
    refine ⟨size, ⟨circuit, found, by rw [circuits, Function.update_self]⟩,
      fun other apart => ⟨by rw [circuits, Function.update_of_ne apart], fun shared => ?_⟩,
      fun first second apart apartToo =>
        shares_congr size (kept first apart) (kept second apartToo)⟩
    exact alone other apart (shares_eq_true_iff.mp shared).2.2.symm
  · intro number instructions cause next ran
    cases made : store.replaced number instructions with
    | error reason =>
        rw [run_withInstructions_refused made] at ran
        cases ran
        rfl
    | ok circuit =>
        rw [run_withInstructions_made made] at ran
        cases ran
  · intro number instructions next ran
    cases made : store.replaced number instructions with
    | error reason =>
        rw [run_withInstructions_refused made] at ran
        cases ran
    | ok replaced =>
        rw [run_withInstructions_made made] at ran
        cases ran
        obtain ⟨circuit, found, accepted⟩ := Outcome.bind_eq_ok_iff.mp made
        obtain ⟨_, rfl⟩ := Circuit.withInstructions_eq_ok_iff.mp accepted
        have older : ∀ {other}, other < store.size → other ≠ store.size := Nat.ne_of_lt
        refine ⟨⟨circuit, found, by rw [circuit_add, Function.update_self]⟩,
          fun other present => by rw [circuit_add, Function.update_of_ne (older present)],
          fun first second present presentToo => ?_⟩
        rw [shares_eq, shares_eq, cellOf_add, Function.update_of_ne (older present),
          Function.update_of_ne (older presentToo), size_add]
        simp [present, presentToo, Nat.lt_succ_of_lt present, Nat.lt_succ_of_lt presentToo]
  · rw [shares_iff_siblings present presentToo]
    constructor
    · exact Or.inr
    · rintro (rfl | siblings)
      · exact siblings_self present
      · exact siblings

theorem history_isolation_copies :
    let shift : Instruction Float := .ofGate .x [⟨0⟩]
    let edits : List Edit := [.create "c" [3], .append 0 shift, .copy 0, .copy 1, .append 0 shift,
      .append 2 (.ofGate .x [⟨9⟩])]
    (history edits).shares 1 2 = .ok true ∧ (history edits).shares 0 1 = .ok false ∧
      (∃ before later source, edits = before ++ later ∧
        Descends (history before) source later 1 ∧ Descends (history before) source later 2) ∧
      ∃ circuit next, (append 1 shift).run (history edits) = .ok () next ∧
        (history edits).circuit 1 = .ok circuit ∧
        next.circuit 1 = .ok { circuit with instructions := circuit.instructions ++ [shift] } ∧
        next.circuit 2 = (history edits).circuit 2 ∧ next.shares 1 2 ≠ .ok true := by
  intro shift edits
  have isolated := history_isolation edits
  have shared : (history edits).shares 1 2 = .ok true := by decide +kernel
  have apart : (history edits).shares 0 1 = .ok false := by decide +kernel
  have size : (history edits).size = 3 := by decide +kernel
  have accepted : ((history edits).appended 1 shift).toOption.isSome = true := by decide +kernel
  obtain ⟨longer, made⟩ := Option.isSome_iff_exists.mp accepted
  obtain ⟨next, ran, _⟩ := run_append_made (Outcome.toOption_eq_some_iff.mp made)
  have siblings := (isolated.2.2.2.2.1 1 2 (by omega) (by omega)).mp shared
  obtain ⟨_, ⟨circuit, found, longer⟩, others, _⟩ := isolated.1 1 shift next ran
  exact ⟨shared, apart, siblings.resolve_left (by decide), circuit, next, ran, found, longer,
    others 2 (by decide)⟩

end QuditSynth.Store
