import Mathlib.Data.List.Forall2

namespace QuditSynth.Outcome

/-! # Outcomes

Computations that may fail are values of `Except`. The lemmas here take such a
computation apart at its success: a sequence of steps succeeds when each step
does, and a loop succeeds when its invariant is kept by every step.
-/

variable {ε α β : Type}

@[simp] theorem ok_bind (value : α) (next : α → Except ε β) :
    (Except.ok value >>= next) = next value := rfl

@[simp] theorem error_bind (error : ε) (next : α → Except ε β) :
    ((Except.error error : Except ε α) >>= next) = .error error := rfl

@[simp] theorem pure_eq_ok (value : α) : (pure value : Except ε α) = .ok value := rfl

@[simp] theorem throw_eq_error (error : ε) : (throw error : Except ε α) = .error error := rfl

theorem bind_eq_ok_iff {first : Except ε α} {next : α → Except ε β} {result : β} :
    (first >>= next) = .ok result ↔ ∃ value, first = .ok value ∧ next value = .ok result := by
  cases first with
  | error error => simp
  | ok value => simp

theorem bind_eq_error_iff {first : Except ε α} {next : α → Except ε β} {error : ε} :
    (first >>= next) = .error error ↔
      first = .error error ∨ ∃ value, first = .ok value ∧ next value = .error error := by
  cases first with
  | error error => simp
  | ok value => simp

/-- A check succeeds before what follows it if both do. -/
theorem check_bind_eq_ok_iff {check : Except ε Unit} {next : Unit → Except ε β} {result : β} :
    (check >>= next) = .ok result ↔ check = .ok () ∧ next () = .ok result := by
  cases check with
  | error error => simp
  | ok => simp

/-- A computation that can fail in one way only. -/
def FailsAs (error : ε) (outcome : Except ε α) : Prop :=
  ∀ cause, outcome = .error cause → cause = error

theorem FailsAs.ok (error : ε) (value : α) : FailsAs error (.ok value) := nofun

theorem FailsAs.bind {error : ε} {first : Except ε α} {next : α → Except ε β}
    (fails : FailsAs error first) (later : ∀ value, FailsAs error (next value)) :
    FailsAs error (first >>= next) := by
  intro cause failed
  rcases bind_eq_error_iff.mp failed with failed | ⟨value, _, failed⟩
  · exact fails cause failed
  · exact later value cause failed

theorem toOption_eq_some_iff {outcome : Except ε α} {value : α} :
    outcome.toOption = some value ↔ outcome = .ok value := by
  cases outcome <;> simp [Except.toOption]

theorem forM_eq_ok_iff {values : List α} {check : α → Except ε Unit} :
    values.forM check = .ok () ↔ ∀ value ∈ values, check value = .ok () := by
  induction values with
  | nil => exact iff_of_true rfl (by simp)
  | cons value rest ih =>
      change (check value >>= fun _ => rest.forM check) = .ok () ↔ _
      rw [check_bind_eq_ok_iff, List.forall_mem_cons, ih]

theorem mapM_eq_ok_iff {values : List α} {f : α → Except ε β} {results : List β} :
    values.mapM f = .ok results ↔
      List.Forall₂ (fun value result => f value = .ok result) values results := by
  induction values generalizing results with
  | nil =>
      rw [List.mapM_nil, List.forall₂_nil_left_iff, pure_eq_ok, Except.ok.injEq]
      exact eq_comm
  | cons value rest ih =>
      rw [List.mapM_cons, bind_eq_ok_iff, List.forall₂_cons_left_iff]
      constructor
      · rintro ⟨result, applied, continued⟩
        obtain ⟨others, mapped, assembled⟩ := bind_eq_ok_iff.mp continued
        exact ⟨result, others, applied, ih.mp mapped, (Except.ok.inj assembled).symm⟩
      · rintro ⟨result, others, applied, mapped, rfl⟩
        exact ⟨result, applied, bind_eq_ok_iff.mpr ⟨others, ih.mpr mapped, rfl⟩⟩

/-- If every step that succeeds has a good result, so have all steps of a sequence that does. -/
theorem mapM_forall {values : List α} {f : α → Except ε β} {good : β → Prop} {results : List β}
    (each : ∀ value ∈ values, ∀ result, f value = .ok result → good result)
    (mapped : values.mapM f = .ok results) : ∀ result ∈ results, good result := by
  induction mapM_eq_ok_iff.mp mapped with
  | nil => exact List.forall_mem_nil good
  | cons applied others ih =>
      obtain ⟨first, rest⟩ := List.forall_mem_cons.mp each
      exact List.forall_mem_cons.mpr ⟨first _ applied, ih rest (mapM_eq_ok_iff.mpr others)⟩

/-- Steps that all succeed with good results do so one after the other. -/
theorem mapM_exists {values : List α} {f : α → Except ε β} {good : β → Prop}
    (each : ∀ value ∈ values, ∃ result, f value = .ok result ∧ good result) :
    ∃ results, values.mapM f = .ok results ∧ ∀ result ∈ results, good result := by
  induction values with
  | nil => exact ⟨[], rfl, List.forall_mem_nil good⟩
  | cons value rest ih =>
      obtain ⟨⟨result, applied, reached⟩, others⟩ := List.forall_mem_cons.mp each
      obtain ⟨results, mapped, allReached⟩ := ih others
      refine ⟨result :: results, ?_, List.forall_mem_cons.mpr ⟨reached, allReached⟩⟩
      rw [List.mapM_cons, applied, ok_bind, mapped, ok_bind, pure_eq_ok]

theorem mapM_eq_map {values : List α} {f : α → Except ε β} {g : α → β}
    (each : ∀ value ∈ values, f value = .ok (g value)) : values.mapM f = .ok (values.map g) := by
  rw [mapM_eq_ok_iff, List.forall₂_map_right_iff, List.forall₂_same]
  exact each

theorem mapM_each {values : List α} {f : α → Except ε β} {results : List β}
    (mapped : values.mapM f = .ok results) : ∀ value ∈ values, ∃ result, f value = .ok result := by
  induction mapM_eq_ok_iff.mp mapped with
  | nil => exact List.forall_mem_nil _
  | cons applied others ih =>
      exact List.forall_mem_cons.mpr ⟨⟨_, applied⟩, ih (mapM_eq_ok_iff.mpr others)⟩

theorem mapM_congr {values : List α} {f g : α → Except ε β}
    (each : ∀ value ∈ values, f value = g value) : values.mapM f = values.mapM g := by
  induction values with
  | nil => rfl
  | cons value rest ih =>
      obtain ⟨first, others⟩ := List.forall_mem_cons.mp each
      rw [List.mapM_cons, List.mapM_cons, first, ih others]

/-- A loop whose steps all succeed and keep an invariant succeeds and keeps it. The invariant may
speak of the values that are still to come. -/
theorem foldlM_exists {step : β → α → Except ε β} (invariant : List α → β → Prop)
    (kept : ∀ value rest state, invariant (value :: rest) state →
      ∃ next, step state value = .ok next ∧ invariant rest next)
    {values : List α} {start : β} (initial : invariant values start) :
    ∃ final, values.foldlM step start = .ok final ∧ invariant [] final := by
  induction values generalizing start with
  | nil => exact ⟨start, rfl, initial⟩
  | cons value rest ih =>
      obtain ⟨next, stepped, continued⟩ := kept value rest start initial
      obtain ⟨final, finished, last⟩ := ih continued
      refine ⟨final, ?_, last⟩
      rw [List.foldlM_cons, stepped, ok_bind, finished]

/-- A step that leaves the state as it is may be taken any number of times. -/
theorem foldlM_replicate {step : β → α → Except ε β} {value : α} {state : β}
    (idle : step state value = .ok state) (count : Nat) :
    (List.replicate count value).foldlM step state = .ok state := by
  induction count with
  | zero => rfl
  | succ count ih => rw [List.replicate_succ, List.foldlM_cons, idle, ok_bind, ih]

end QuditSynth.Outcome
