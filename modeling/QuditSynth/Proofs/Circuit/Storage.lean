import Mathlib.Logic.Function.Basic
import QuditSynth.Circuit.Store
import QuditSynth.Proofs.Circuit.Reachable

namespace QuditSynth

/-! # What a store holds

A store is read through the circuits it holds and through the cells in which
they lie. Each change updates both at one number. A workspace, in which every
circuit has a list of its own, is read in the same way, and after the same edits
the two hold the same circuits and share in the same places.
-/

/-- Two functions take equal values at the same places. -/
def SameKernel {α β γ : Type} (f : α → β) (g : α → γ) : Prop := ∀ x y, f x = f y ↔ g x = g y

namespace SameKernel

variable {α β γ : Type} [DecidableEq α] {f : α → β} {g : α → γ}

/-- New values that occur nowhere else. -/
theorem update_fresh (same : SameKernel f g) {place : α} {a : β} {b : γ}
    (freshLeft : ∀ x, x ≠ place → f x ≠ a) (freshRight : ∀ x, x ≠ place → g x ≠ b) :
    SameKernel (Function.update f place a) (Function.update g place b) := by
  intro x y
  by_cases atX : x = place <;> by_cases atY : y = place
  · simp [atX, atY]
  · simp [atX, atY, (freshLeft y atY).symm, (freshRight y atY).symm]
  · simp [atX, atY, freshLeft x atX, freshRight x atX]
  · simpa [atX, atY] using same x y

/-- New values that are taken from elsewhere. -/
theorem update_copy (same : SameKernel f g) (place source : α) :
    SameKernel (Function.update f place (f source)) (Function.update g place (g source)) := by
  intro x y
  by_cases atX : x = place <;> by_cases atY : y = place <;> simp [atX, atY, same _ _]

end SameKernel

/-- Reading behind the end of a list that has grown by one element. -/
theorem getElem?_concat_update {α : Type} (items : List α) (item : α) :
    (fun number => (items ++ [item])[number]?) =
      Function.update (fun number => items[number]?) items.length (some item) := by
  funext number
  by_cases last : number = items.length
  · simp [last]
  · rw [Function.update_of_ne last, List.getElem?_append]
    split
    · rfl
    · rw [List.getElem?_eq_none (by simp; omega), List.getElem?_eq_none (by omega)]

theorem getElem?_set_update {α : Type} {items : List α} {number : Nat} {old : α}
    (present : items[number]? = some old) (item : α) :
    (fun other => (items.set number item)[other]?) =
      Function.update (fun other => items[other]?) number (some item) := by
  obtain ⟨bound, _⟩ := List.getElem?_eq_some_iff.mp present
  funext other
  by_cases same : other = number
  · simp [same, bound]
  · rw [Function.update_of_ne same, List.getElem?_set_ne (Ne.symm same)]

namespace Store

variable {R : Type} {store : Store R} {number : Nat} {handle : Handle}
  {instruction : Instruction R}

@[simp] theorem run_ofExcept_ok {α : Type} (value : α) :
    EStateM.run (MonadExcept.ofExcept (.ok value) : Change R α) store = .ok value store := rfl

@[simp] theorem run_ofExcept_error {α : Type} (cause : Error) :
    EStateM.run (MonadExcept.ofExcept (.error cause) : Change R α) store = .error cause store := rfl

def cellOf (store : Store R) (number : Nat) : Option Nat := store.handles[number]?.map Handle.cell

theorem handle_eq (present : store.handles[number]? = some handle) :
    store.handle number = .ok handle := by
  simp [Store.handle, present]

theorem handle_eq_error (absent : store.handles[number]? = none) :
    store.handle number = .error .outOfRange := by
  simp [Store.handle, absent]

theorem circuit_eq (store : Store R) (number : Nat) : store.circuit number =
    store.handles[number]?.elim (.error .outOfRange) fun handle =>
      .ok ⟨handle.name, handle.register, store.contents handle.cell⟩ := by
  cases found : store.handles[number]? with
  | none => simp [Store.circuit, handle_eq_error found]
  | some handle => simp [Store.circuit, handle_eq found]

theorem shares_eq (store : Store R) (first second : Nat) : store.shares first second =
    if first < store.size ∧ second < store.size then
      .ok (store.cellOf first == store.cellOf second)
    else .error .outOfRange := by
  cases here : store.handles[first]? with
  | none =>
      have outside : ¬ first < store.size := by simpa [size] using here
      simp [Store.shares, handle_eq_error here, outside]
  | some handle =>
      have within : first < store.size := (List.getElem?_eq_some_iff.mp here).1
      cases there : store.handles[second]? with
      | none =>
          have outside : ¬ second < store.size := by simpa [size] using there
          simp [Store.shares, handle_eq here, handle_eq_error there, outside]
      | some other =>
          have withinToo : second < store.size := (List.getElem?_eq_some_iff.mp there).1
          simp [Store.shares, handle_eq here, handle_eq there, within, withinToo, cellOf, here,
            there]

theorem shares_eq_true_iff {first second : Nat} : store.shares first second = .ok true ↔
    first < store.size ∧ second < store.size ∧ store.cellOf first = store.cellOf second := by
  rw [shares_eq]
  split
  · next within => simp [within]
  · next outside =>
    refine iff_of_false (by simp) fun ⟨within, withinToo, _⟩ => outside ⟨within, withinToo⟩

theorem located_of_cellOf {cell : Nat} (found : store.cellOf number = some cell) :
    cell < store.cells.length := by
  obtain ⟨handle, present, rfl⟩ := Option.map_eq_some_iff.mp found
  exact store.located handle (List.mem_of_getElem? present)

theorem cellOf_ne_new (store : Store R) (number : Nat) :
    store.cellOf number ≠ some store.cells.length :=
  fun found => Nat.lt_irrefl _ (located_of_cellOf found)

section Add

variable (store : Store R) (circuit : Circuit R)

@[simp] theorem size_add : (store.add circuit).size = store.size + 1 := by simp [size, add]

theorem cellOf_add : (store.add circuit).cellOf =
    Function.update store.cellOf store.size (some store.cells.length) := by
  funext number
  have grown := congrFun (getElem?_concat_update store.handles
    ⟨circuit.name, circuit.register, store.cells.length⟩) number
  simp only [cellOf, add, grown, Function.update_apply, size]
  split <;> rfl

theorem circuit_add : (store.add circuit).circuit =
    Function.update store.circuit store.size (.ok circuit) := by
  funext number
  have grown := congrFun (getElem?_concat_update store.handles
    ⟨circuit.name, circuit.register, store.cells.length⟩) number
  simp only [circuit_eq, add, grown, Function.update_apply, size]
  by_cases last : number = store.handles.length
  · simp [last, contents]
  · simp only [last, if_false]
    cases found : store.handles[number]? with
    | none => rfl
    | some handle =>
        have old := store.located handle (List.mem_of_getElem? found)
        simp [contents, List.getElem?_append_left old]

end Add

section Share

variable (present : store.handles[number]? = some handle)

theorem cellOf_share : (store.share handle (List.mem_of_getElem? present)).cellOf =
    Function.update store.cellOf store.size (store.cellOf number) := by
  funext other
  have grown := congrFun (getElem?_concat_update store.handles handle) other
  simp only [cellOf, share, grown, Function.update_apply, size, present]
  split <;> rfl

theorem circuit_share : (store.share handle (List.mem_of_getElem? present)).circuit =
    Function.update store.circuit store.size (store.circuit number) := by
  funext other
  have grown := congrFun (getElem?_concat_update store.handles handle) other
  simp only [circuit_eq, share, grown, Function.update_apply, size, present]
  split <;> rfl

end Share

/-- No other circuit lies in the cell of this one. -/
def Alone (store : Store R) (number : Nat) : Prop :=
  ∀ other, other ≠ number → store.cellOf other ≠ store.cellOf number

section Append

variable (present : store.handles[number]? = some handle)

include present

theorem cellOf_eq : store.cellOf number = some handle.cell := by simp [cellOf, present]

theorem handle_detach (other : Nat) : (store.detach number handle).handles[other]? =
    if other = number then some { handle with cell := store.cells.length }
    else store.handles[other]? := by
  refine (congrFun (getElem?_set_update present _) other).trans ?_
  rw [Function.update_apply]

theorem cellOf_detach : (store.detach number handle).cellOf =
    Function.update store.cellOf number (some store.cells.length) := by
  funext other
  rw [cellOf, handle_detach present, Function.update_apply]
  split <;> rfl

theorem circuit_detach : (store.detach number handle).circuit = store.circuit := by
  have old := store.located handle (List.mem_of_getElem? present)
  funext other
  rw [circuit_eq, circuit_eq, handle_detach present]
  by_cases same : other = number
  · simp [same, present, contents, detach, old]
  · cases found : store.handles[other]? with
    | none => simp [same]
    | some twin =>
        have oldTwin := store.located twin (List.mem_of_getElem? found)
        simp [same, contents, detach, List.getElem?_append_left oldTwin]

theorem alone_detach : (store.detach number handle).Alone number := by
  intro other apart
  rw [cellOf_detach present, Function.update_of_ne apart, Function.update_self]
  exact store.cellOf_ne_new other

/-- A cell with one owner is the cell of no other circuit. -/
theorem alone_of_owners (single : store.owners handle.cell = 1) : store.Alone number := by
  intro other apart same
  obtain ⟨within, found⟩ := List.getElem?_eq_some_iff.mp present
  obtain ⟨twin, foundTwin, cell⟩ : ∃ twin, store.handles[other]? = some twin ∧
      twin.cell = handle.cell := by
    simpa [cellOf, present] using same
  -- If the circuit left its cell, the other one would still be there.
  have left : (store.detach number handle).owners handle.cell = 0 := by
    have old := store.located handle (List.mem_of_getElem? present)
    rw [owners, detach, List.countP_set within, found, ← owners, single]
    simp [Nat.ne_of_gt old]
  have stays : twin ∈ (store.detach number handle).handles := by
    refine List.mem_of_getElem? (i := other) ?_
    rw [handle_detach present, if_neg apart, foundTwin]
  have gone := List.countP_eq_zero.mp left twin stays
  simp [cell] at gone

theorem circuit_push (alone : store.Alone number) (instruction : Instruction R) :
    (store.push handle.cell instruction).circuit = Function.update store.circuit number
      (.ok ⟨handle.name, handle.register, store.contents handle.cell ++ [instruction]⟩) := by
  have old := store.located handle (List.mem_of_getElem? present)
  funext other
  rw [circuit_eq]
  by_cases same : other = number
  · rw [same, Function.update_self]
    simp [push, present, contents, old]
  · rw [Function.update_of_ne same, circuit_eq]
    cases found : store.handles[other]? with
    | none => simp [push, found]
    | some twin =>
        have apart : handle.cell ≠ twin.cell := by
          have apart := alone other same
          rw [cellOf_eq present, cellOf_eq found] at apart
          exact fun equal => apart (congrArg some equal.symm)
        simp [push, found, contents, apart]

/-- An accepted instruction reaches a store in which the circuit lies alone in its cell. -/
theorem run_append (valid : instruction.validate handle.register = .ok ()) :
    ∃ own : Store R, ∃ cell, (append number instruction).run store =
        .ok () (own.push cell instruction) ∧
      own.handles[number]? = some { handle with cell } ∧ own.Alone number ∧
      own.size = store.size ∧ own.circuit = store.circuit ∧
      ∀ other, other ≠ number → own.cellOf other = store.cellOf other := by
  by_cases single : store.owners handle.cell = 1
  · refine ⟨store, handle.cell, ?_, present, alone_of_owners present single, rfl, rfl,
      fun _ _ => rfl⟩
    simp [append, handle_eq present, valid, single]
  · refine ⟨store.detach number handle, store.cells.length, ?_, ?_, alone_detach present, ?_,
      circuit_detach present, fun other apart => ?_⟩
    · have moved : (store.detach number handle).handle number =
          .ok { handle with cell := store.cells.length } := handle_eq (by simp [handle_detach present])
      simp [append, handle_eq present, valid, single, moved]
    · rw [handle_detach present, if_pos rfl]
    · simp [size, detach]
    · rw [cellOf_detach present, Function.update_of_ne apart]

end Append

/-- The circuit that an added instruction would make. -/
def appended (store : Store R) (number : Nat) (instruction : Instruction R) :
    Except Error (Circuit R) := do
  (← store.circuit number).append instruction

theorem run_append_refused {cause : Error}
    (refused : store.appended number instruction = .error cause) :
    (append number instruction).run store = .error cause store := by
  cases found : store.handles[number]? with
  | none =>
      simp only [appended, circuit_eq, found, Option.elim_none, Outcome.error_bind] at refused
      cases refused
      simp [append, handle_eq_error found]
  | some handle =>
      simp only [appended, circuit_eq, found, Option.elim_some, Outcome.ok_bind,
        Circuit.append] at refused
      cases validated : instruction.validate handle.register with
      | ok => simp [validated] at refused
      | error reason =>
          simp only [validated, Outcome.error_bind, Except.error.injEq] at refused
          simp [append, handle_eq found, validated, refused]

theorem run_append_made {longer : Circuit R}
    (made : store.appended number instruction = .ok longer) :
    ∃ next : Store R, (append number instruction).run store = .ok () next ∧
      next.size = store.size ∧ next.circuit = Function.update store.circuit number (.ok longer) ∧
      next.Alone number ∧ ∀ other, other ≠ number → next.cellOf other = store.cellOf other := by
  cases found : store.handles[number]? with
  | none => simp [appended, circuit_eq, found] at made
  | some handle =>
      simp only [appended, circuit_eq, found, Option.elim_some, Outcome.ok_bind, Circuit.append,
        Outcome.check_bind_eq_ok_iff, Outcome.pure_eq_ok, Except.ok.injEq] at made
      obtain ⟨valid, rfl⟩ := made
      obtain ⟨own, cell, ran, held, alone, sameSize, same, kept⟩ := run_append found valid
      have contents : own.contents cell = store.contents handle.cell := by
        have here := congrFun same number
        simpa [circuit_eq, held, found] using here
      refine ⟨own.push cell instruction, ran, sameSize, ?_, alone, kept⟩
      rw [circuit_push held alone, same, contents]

theorem run_copy_none (absent : store.handles[number]? = none) :
    (copy number).run store = .error .outOfRange store := by
  simp only [copy, EStateM.run_bind, EStateM.run_get]
  split
  · next found => simp [absent] at found
  · rfl

theorem run_copy (present : store.handles[number]? = some handle) :
    (copy number).run store =
      .ok () (store.share handle (List.mem_of_getElem? present)) := by
  simp only [copy, EStateM.run_bind, EStateM.run_get]
  split
  · next other found =>
    cases Option.some.inj (present.symm.trans found)
    rfl
  · next found => simp [present] at found

/-- The circuit that other instructions on the register of a circuit would make. -/
def replaced (store : Store R) (number : Nat) (instructions : List (Instruction R)) :
    Except Error (Circuit R) := do
  (← store.circuit number).withInstructions instructions

theorem run_withInstructions_refused {instructions : List (Instruction R)} {cause : Error}
    (refused : store.replaced number instructions = .error cause) :
    (withInstructions number instructions).run store = .error cause store := by
  cases found : store.circuit number with
  | error reason =>
      simp only [replaced, found, Outcome.error_bind, Except.error.injEq] at refused
      simp [withInstructions, found, refused]
  | ok circuit =>
      simp only [replaced, found, Outcome.ok_bind] at refused
      simp [withInstructions, found, refused]

theorem run_withInstructions_made {instructions : List (Instruction R)} {circuit : Circuit R}
    (made : store.replaced number instructions = .ok circuit) :
    (withInstructions number instructions).run store = .ok () (store.add circuit) := by
  obtain ⟨source, found, made⟩ := Outcome.bind_eq_ok_iff.mp made
  simp [withInstructions, found, made]

/-- The store after a change, whether it succeeds or not. -/
def after (store : Store R) (change : Change R Unit) : Store R :=
  match change.run store with
  | .ok _ next => next
  | .error _ next => next

def edit (store : Store Float) : Edit → Store Float
  | .create name dims => (Circuit.ofDims name dims).toOption.elim store store.add
  | .createOn name register => store.add (.empty name register)
  | .append number instruction => store.after (append number instruction)
  | .replace number instructions => store.after (withInstructions number instructions)
  | .copy number => store.after (copy number)
  | .load text => (Circuit.read text).toOption.elim store store.add

/-- The store after some edits, beginning with an empty one. -/
def history (edits : List Edit) : Store Float := edits.foldl edit {}

end Store

namespace Workspace

variable {R : Type} {workspace : Workspace R} {number : Nat}

def storageOf (workspace : Workspace R) (number : Nat) : Option Nat :=
  workspace.held[number]?.map Held.storage

/-- Storage numbers in use are not fresh. -/
def Numbered (workspace : Workspace R) : Prop :=
  ∀ held ∈ workspace.held, held.storage < workspace.fresh

theorem get_eq (workspace : Workspace R) (number : Nat) : workspace.get number =
    workspace.held[number]?.elim (.error .outOfRange) .ok := by
  unfold get
  split
  · next found => simp [found]
  · next absent => simp [absent]

theorem circuit_eq (workspace : Workspace R) (number : Nat) : workspace.circuit number =
    workspace.held[number]?.elim (.error .outOfRange) fun held => .ok held.circuit := by
  rw [circuit, get_eq]
  cases workspace.held[number]? <;> rfl

theorem storageOf_ne_fresh (numbered : workspace.Numbered) (number : Nat) :
    workspace.storageOf number ≠ some workspace.fresh := by
  intro found
  obtain ⟨held, present, storage⟩ := Option.map_eq_some_iff.mp found
  have bound := numbered held (List.mem_of_getElem? present)
  omega

theorem shares_eq (workspace : Workspace R) (first second : Nat) :
    workspace.shares first second =
      if first < workspace.size ∧ second < workspace.size then
        .ok (workspace.storageOf first == workspace.storageOf second)
      else .error .outOfRange := by
  simp only [shares, get_eq, storageOf, size]
  cases here : workspace.held[first]? with
  | none =>
      have outside : ¬ first < workspace.held.length := by simpa using here
      simp [outside]
  | some held =>
      have within : first < workspace.held.length := (List.getElem?_eq_some_iff.mp here).1
      cases there : workspace.held[second]? with
      | none =>
          have outside : ¬ second < workspace.held.length := by simpa using there
          simp [outside]
      | some other =>
          have withinToo : second < workspace.held.length := (List.getElem?_eq_some_iff.mp there).1
          simp [within, withinToo]

section Add

variable (workspace : Workspace R) (held : Held R)

theorem storageOf_concat (fresh : Nat) :
    storageOf ⟨workspace.held ++ [held], fresh⟩ =
      Function.update workspace.storageOf workspace.size (some held.storage) := by
  funext number
  have grown := congrFun (getElem?_concat_update workspace.held held) number
  simp only [storageOf, grown, Function.update_apply, size]
  split <;> rfl

theorem circuit_concat (fresh : Nat) :
    Workspace.circuit ⟨workspace.held ++ [held], fresh⟩ =
      Function.update workspace.circuit workspace.size (.ok held.circuit) := by
  funext number
  have grown := congrFun (getElem?_concat_update workspace.held held) number
  simp only [circuit_eq, grown, Function.update_apply, size]
  by_cases last : number = workspace.held.length <;> simp [last]

end Add

section Set

variable {old : Held R} (present : workspace.held[number]? = some old) (held : Held R)

include present

theorem storageOf_set (fresh : Nat) : storageOf ⟨workspace.held.set number held, fresh⟩ =
    Function.update workspace.storageOf number (some held.storage) := by
  funext other
  have changed := congrFun (getElem?_set_update present held) other
  simp only [storageOf, changed, Function.update_apply]
  split <;> rfl

theorem circuit_set (fresh : Nat) : Workspace.circuit ⟨workspace.held.set number held, fresh⟩ =
    Function.update workspace.circuit number (.ok held.circuit) := by
  funext other
  have changed := congrFun (getElem?_set_update present held) other
  simp only [circuit_eq, changed, Function.update_apply]
  by_cases same : other = number <;> simp [same]

end Set

end Workspace

namespace Store

variable {R : Type}

/-- A store and a workspace that hold the same circuits and share in the same places. -/
structure Represents (store : Store R) (workspace : Workspace R) : Prop where
  size : store.size = workspace.size
  circuit : store.circuit = workspace.circuit
  sharing : SameKernel store.cellOf workspace.storageOf
  numbered : workspace.Numbered

namespace Represents

variable {store : Store R} {workspace : Workspace R} (represents : store.Represents workspace)

include represents

theorem shares (first second : Nat) : store.shares first second = workspace.shares first second := by
  have same := represents.sharing first second
  simp only [Store.shares_eq, Workspace.shares_eq, represents.size, beq_eq_decide, same]

theorem held_exists {number : Nat} {handle : Handle}
    (present : store.handles[number]? = some handle) :
    ∃ held, workspace.held[number]? = some held ∧ store.circuit number = .ok held.circuit := by
  have within := (List.getElem?_eq_some_iff.mp present).1
  change number < store.size at within
  rw [represents.size] at within
  refine ⟨workspace.held[number], List.getElem?_eq_getElem within, ?_⟩
  rw [represents.circuit, Workspace.circuit_eq, List.getElem?_eq_getElem within]
  rfl

theorem add (circuit : Circuit R) : (store.add circuit).Represents (workspace.add circuit) where
  size := by simp [Workspace.add, Workspace.size, represents.size]
  circuit := by
    rw [circuit_add, represents.circuit, represents.size]
    exact (Workspace.circuit_concat workspace ⟨circuit, workspace.fresh⟩ _).symm
  sharing := by
    rw [cellOf_add, Workspace.add, Workspace.storageOf_concat, represents.size]
    exact represents.sharing.update_fresh (fun number _ => store.cellOf_ne_new number)
      fun number _ => Workspace.storageOf_ne_fresh represents.numbered number
  numbered := by
    intro held member
    rcases List.mem_append.mp member with older | new
    · exact Nat.lt_succ_of_lt (represents.numbered held older)
    · rw [List.mem_singleton.mp new]
      exact Nat.lt_succ_self _

theorem copy (number : Nat) : (store.after (Store.copy number)).Represents
    ((workspace.copy number).toOption.getD workspace) := by
  cases present : store.handles[number]? with
  | none =>
      have absent : workspace.held[number]? = none := by
        have outside : ¬ number < store.size := by simpa [Store.size] using present
        rw [represents.size] at outside
        simpa [Workspace.size] using outside
      have refused : workspace.copy number = .error .outOfRange := by
        simp [Workspace.copy, Workspace.get_eq, absent]
      rw [after, run_copy_none present, refused]
      exact represents
  | some handle =>
      obtain ⟨held, found, same⟩ := represents.held_exists present
      have copied : workspace.copy number =
          .ok { workspace with held := workspace.held ++ [held] } := by
        simp [Workspace.copy, Workspace.get_eq, found]
      have storage : workspace.storageOf number = some held.storage := by
        simp [Workspace.storageOf, found]
      rw [after, run_copy present, copied]
      exact {
        size := by
          have size : store.handles.length = workspace.held.length := represents.size
          simp [Store.size, share, Workspace.size, Except.toOption, size]
        circuit := by
          rw [circuit_share present, same, represents.circuit, represents.size]
          exact (Workspace.circuit_concat workspace held _).symm
        sharing := by
          have copied := represents.sharing.update_copy workspace.size number
          rw [storage, ← Workspace.storageOf_concat workspace held workspace.fresh] at copied
          rw [cellOf_share present, represents.size]
          exact copied
        numbered := by
          intro other member
          rcases List.mem_append.mp member with older | new
          · exact represents.numbered other older
          · rw [List.mem_singleton.mp new]
            exact represents.numbered held (List.mem_of_getElem? found) }

theorem withInstructions (number : Nat) (instructions : List (Instruction R)) :
    (store.after (Store.withInstructions number instructions)).Represents
      ((workspace.withInstructions number instructions).toOption.getD workspace) := by
  have same : workspace.withInstructions number instructions =
      (store.replaced number instructions).map workspace.add := by
    rw [Workspace.withInstructions, replaced, represents.circuit]
    cases workspace.circuit number with
    | error cause => rfl
    | ok circuit => cases made : circuit.withInstructions instructions <;> simp [made, Except.map]
  rw [same, after]
  cases made : store.replaced number instructions with
  | error cause =>
      rw [run_withInstructions_refused made]
      exact represents
  | ok circuit =>
      rw [run_withInstructions_made made]
      exact represents.add circuit

theorem append (number : Nat) (instruction : Instruction R) :
    (store.after (Store.append number instruction)).Represents
      ((workspace.append number instruction).toOption.getD workspace) := by
  have same : workspace.append number instruction =
      (store.appended number instruction).map fun longer =>
        ⟨workspace.held.set number ⟨longer, workspace.fresh⟩, workspace.fresh + 1⟩ := by
    rw [Workspace.append, appended, represents.circuit]
    cases workspace.circuit number with
    | error cause => rfl
    | ok circuit => cases made : circuit.append instruction <;> simp [made, Except.map]
  rw [same, after]
  cases made : store.appended number instruction with
  | error cause =>
      rw [run_append_refused made]
      exact represents
  | ok longer =>
      obtain ⟨circuit, found, _⟩ := Outcome.bind_eq_ok_iff.mp made
      obtain ⟨next, ran, size, circuits, alone, kept⟩ := run_append_made made
      obtain ⟨held, present⟩ : ∃ held, workspace.held[number]? = some held := by
        rw [represents.circuit, Workspace.circuit_eq] at found
        cases present : workspace.held[number]? with
        | none => simp [present] at found
        | some held => exact ⟨held, rfl⟩
      have cells : next.cellOf = Function.update store.cellOf number (next.cellOf number) := by
        refine Function.eq_update_iff.mpr ⟨rfl, fun other apart => kept other apart⟩
      rw [ran]
      exact {
        size := by simpa [Workspace.size, Except.map, Except.toOption, size] using represents.size
        circuit := by
          rw [circuits, represents.circuit]
          exact (Workspace.circuit_set present ⟨longer, workspace.fresh⟩ _).symm
        sharing := by
          have fresh : ∀ other, other ≠ number → store.cellOf other ≠ next.cellOf number := by
            intro other apart
            rw [← kept other apart]
            exact alone other apart
          have moved := represents.sharing.update_fresh fresh fun other _ =>
            Workspace.storageOf_ne_fresh represents.numbered other
          rw [← Workspace.storageOf_set present ⟨longer, workspace.fresh⟩
            (workspace.fresh + 1)] at moved
          rw [cells]
          exact moved
        numbered := by
          intro other member
          rcases List.mem_or_eq_of_mem_set member with older | rfl
          · exact Nat.lt_succ_of_lt (represents.numbered other older)
          · exact Nat.lt_succ_self _ }

end Represents

theorem represents_edit {store : Store Float} {workspace : Workspace Float}
    (represents : store.Represents workspace) (change : Edit) :
    (store.edit change).Represents (workspace.edit change) := by
  cases change with
  | create name dims =>
      simp only [edit, Workspace.edit, Workspace.edit?]
      cases (Circuit.ofDims name dims : Except Error (Circuit Float)) with
      | error cause => exact represents
      | ok circuit => exact represents.add circuit
  | createOn name register => exact represents.add _
  | append number instruction => exact represents.append number instruction
  | replace number instructions => exact represents.withInstructions number instructions
  | copy number => exact represents.copy number
  | load text =>
      simp only [edit, Workspace.edit, Workspace.edit?]
      cases Circuit.read text with
      | error cause => exact represents
      | ok circuit => exact represents.add circuit

theorem represents_history (edits : List Edit) :
    (history edits).Represents (Workspace.history edits) := by
  have kept : ∀ (store : Store Float) (workspace : Workspace Float), store.Represents workspace →
      (edits.foldl edit store).Represents (edits.foldl Workspace.edit workspace) := by
    induction edits with
    | nil => exact fun _ _ represents => represents
    | cons change edits ih =>
        exact fun _ _ represents => ih _ _ (represents_edit represents change)
  refine kept {} {} ⟨rfl, ?_, fun _ _ => ?_, ?_⟩
  · funext number
    simp [circuit_eq, Workspace.circuit_eq]
  · simp [cellOf, Workspace.storageOf]
  · simp [Workspace.Numbered]

end Store
end QuditSynth
