import QuditSynth.Minimizer

namespace QuditSynth

/-! # Recorded questions

A minimizer runs in the monad of its objective. An objective that writes down the
points it is asked for makes the questions of a run, their number and their order
part of what the run returns.
-/

variable {R α β : Type}

/-- Answers with the objective and writes the point down. -/
def ask (objective : List R → R) (point : List R) : StateM (List (List R)) R := do
  modify (· ++ [point])
  return objective point

/-- The run returns a value and asks for some points, in this order. -/
def Asks (run : StateM (List (List R)) α) (value : α) (points : List (List R)) : Prop :=
  ∀ asked, run.run asked = (value, asked ++ points)

theorem asks_ask (objective : List R → R) (point : List R) :
    Asks (ask objective point) (objective point) [point] :=
  fun _ => rfl

theorem asks_pure (value : α) : Asks (R := R) (pure value) value [] := by
  intro asked
  rw [List.append_nil]
  rfl

theorem Asks.unique {run : StateM (List (List R)) α} {a b : α} {points more : List (List R)}
    (first : Asks run a points) (second : Asks run b more) : a = b ∧ points = more := by
  have same := (first []).symm.trans (second [])
  exact Prod.mk.inj same

theorem Asks.bind {run : StateM (List (List R)) α} {next : α → StateM (List (List R)) β}
    {a : α} {b : β} {points more : List (List R)} (first : Asks run a points)
    (second : Asks (next a) b more) : Asks (run >>= next) b (points ++ more) := by
  intro asked
  rw [StateT.run_bind, first asked, ← List.append_assoc]
  exact second (asked ++ points)

theorem Asks.bind_pure {run : StateM (List (List R)) α} {a : α} {points : List (List R)}
    (first : Asks run a points) (f : α → β) :
    Asks (run >>= fun a => pure (f a)) (f a) points := by
  rw [← List.append_nil points]
  exact first.bind (asks_pure (f a))

theorem Asks.mapM {run : α → StateM (List (List R)) β} {value : α → β}
    {points : α → List (List R)} (each : ∀ a, Asks (run a) (value a) (points a))
    (elements : List α) :
    Asks (elements.mapM run) (elements.map value) (elements.flatMap points) := by
  induction elements with
  | nil => exact asks_pure []
  | cons a elements ih =>
      rw [List.mapM_cons, List.flatMap_cons, List.map_cons]
      exact (each a).bind (ih.bind_pure (value a :: ·))

end QuditSynth
