import Mathlib.Logic.Relation
import QuditSynth.Proofs.Synthesis.Climb
import QuditSynth.Proofs.Synthesis.Selection

namespace QuditSynth

/-! # Restarts that run side by side

The restarts of a search take turns in any order and lower a least distance that
they share, but no outcome is made from it. So every schedule leaves the same
table of outcomes, and a search gives the same answer as if it ran its restarts
one after the other.
-/

namespace Search

/-- How far a restart has come: it has not begun, it has lowered the shared distance, or its
outcome is in the table. -/
inductive Phase
  | waiting
  | lowered (result : Restart Float)
  | finished (outcome : Option (Restart Float))

namespace Phase

/-- What a restart does next, if it runs to the given outcome. -/
inductive Advances (outcome : Option (Restart Float)) : Phase → Phase → Prop
  | discard (lost : outcome = none) : Advances outcome .waiting (.finished none)
  | lower {result : Restart Float} (made : outcome = some result) :
      Advances outcome .waiting (.lowered result)
  | finish {result : Restart Float} :
      Advances outcome (.lowered result) (.finished (some result))

/-- What is left of the shared distance after a restart came to a phase. -/
def lowers : Phase → UInt64 → UInt64
  | .lowered result, least => min least result.distance.toBits
  | _, least => least

def Fits (outcome : Option (Restart Float)) : Phase → Prop
  | .waiting => True
  | .lowered result => outcome = some result
  | .finished result => result = outcome

def weight : Phase → Nat
  | .waiting => 2
  | .lowered _ => 1
  | .finished _ => 0

variable {outcome : Option (Restart Float)} {before after : Phase}

theorem Advances.fits (advances : Advances outcome before after) (fits : before.Fits outcome) :
    after.Fits outcome := by
  cases advances with
  | discard lost => exact lost.symm
  | lower made => exact made
  | finish => exact fits.symm

theorem Advances.lighter (advances : Advances outcome before after) :
    after.weight < before.weight := by
  cases advances with
  | discard => exact Nat.zero_lt_two
  | lower => exact Nat.one_lt_two
  | finish => exact Nat.zero_lt_one

theorem advances_exists (outcome : Option (Restart Float))
    (unfinished : ∀ result, before ≠ .finished result) :
    ∃ after, Advances outcome before after := by
  cases before with
  | waiting =>
      cases ran : outcome with
      | none => exact ⟨_, .discard rfl⟩
      | some result => exact ⟨_, .lower rfl⟩
  | lowered result => exact ⟨_, .finish⟩
  | finished result => exact absurd rfl (unfinished result)

end Phase

/-- Restarts on their way, and the bits of the least distance so far. -/
structure Pool where
  least : UInt64
  phases : List Phase

namespace Pool

def start (count : Nat) : Pool :=
  ⟨(Scalar.unbounded : Float).toBits, List.replicate count .waiting⟩

def weight (pool : Pool) : Nat := (pool.phases.map Phase.weight).sum

/-- One restart goes on. Unless restarts run side by side, none begins before all earlier ones have
finished. -/
inductive Step (parallel : Bool) (run : Nat → Option (Restart Float)) : Pool → Pool → Prop
  | advance {pool : Pool} {index : Nat} {before after : Phase}
      (held : pool.phases[index]? = some before) (advances : before.Advances (run index) after)
      (turn : parallel = false → ∀ earlier < index, ∃ outcome,
        pool.phases[earlier]? = some (.finished outcome)) :
      Step parallel run pool ⟨after.lowers pool.least, pool.phases.set index after⟩

/-- The number of restarts is kept, and what they have come to is what they run to. -/
structure Fits (run : Nat → Option (Restart Float)) (count : Nat) (pool : Pool) : Prop where
  length : pool.phases.length = count
  phases : ∀ (index : Nat) (phase : Phase), pool.phases[index]? = some phase →
    phase.Fits (run index)

variable {parallel : Bool} {run : Nat → Option (Restart Float)} {count : Nat} {pool next : Pool}

theorem fits_start (run : Nat → Option (Restart Float)) (count : Nat) :
    Fits run count (start count) := by
  refine ⟨List.length_replicate, fun index phase held => ?_⟩
  obtain ⟨_, rfl⟩ := List.mem_replicate.mp (List.mem_of_getElem? held)
  trivial

theorem Step.fits (step : Step parallel run pool next) (fits : Fits run count pool) :
    Fits run count next := by
  cases step with
  | @advance index before after held advances turn =>
      refine ⟨List.length_set.trans fits.length, fun other phase found => ?_⟩
      by_cases same : index = other
      · subst same
        rw [List.getElem?_set_self (List.getElem?_eq_some_iff.mp held).1] at found
        cases found
        exact advances.fits (fits.phases _ _ held)
      · rw [List.getElem?_set_ne same] at found
        exact fits.phases other phase found

theorem fits_of_steps (steps : Relation.ReflTransGen (Step parallel run) pool next)
    (fits : Fits run count pool) : Fits run count next := by
  induction steps with
  | refl => exact fits
  | tail _ step ih => exact step.fits ih

/-- Some schedule brings all restarts to an end, with the given table of outcomes. -/
def Ends (parallel : Bool) (run : Nat → Option (Restart Float)) (pool : Pool)
    (outcomes : List (Option (Restart Float))) : Prop :=
  ∃ least, Relation.ReflTransGen (Step parallel run) pool ⟨least, outcomes.map .finished⟩

/-- Restarts leave the outcomes they run to, each in its place. -/
theorem outcomes_of_ends {outcomes : List (Option (Restart Float))}
    (ends : Ends parallel run (start count) outcomes) : outcomes = (List.range count).map run := by
  obtain ⟨least, steps⟩ := ends
  obtain ⟨length, phases⟩ := fits_of_steps steps (fits_start run count)
  rw [List.length_map] at length
  refine List.ext_getElem (by simpa using length) fun index inside _ => ?_
  rw [List.getElem_map, List.getElem_range]
  exact phases index (.finished outcomes[index]) (by simp [inside])

/-! ## Every schedule can be brought to its end -/

theorem sum_set_lt {weights : List Nat} {index old new : Nat}
    (held : weights[index]? = some old) (lighter : new < old) :
    (weights.set index new).sum < weights.sum := by
  induction weights generalizing index with
  | nil => simp at held
  | cons first rest ih =>
      cases index with
      | zero =>
          cases held
          simpa using lighter
      | succ index => simpa using ih held

theorem Step.lighter (step : Step parallel run pool next) : next.weight < pool.weight := by
  cases step with
  | advance held advances turn =>
      simp only [weight, List.map_set]
      exact sum_set_lt (by simp [held]) advances.lighter

theorem phases_cases (phases : List Phase) :
    (∃ outcomes : List (Option (Restart Float)), phases = outcomes.map .finished) ∨
      ∃ (outcomes : List (Option (Restart Float))) (phase : Phase) (rest : List Phase),
        phases = outcomes.map .finished ++ phase :: rest ∧
          ∀ outcome, phase ≠ .finished outcome := by
  induction phases with
  | nil => exact Or.inl ⟨[], rfl⟩
  | cons first rest ih =>
      cases first with
      | finished outcome =>
          rcases ih with ⟨outcomes, rfl⟩ | ⟨outcomes, phase, later, rfl, unfinished⟩
          · exact Or.inl ⟨outcome :: outcomes, rfl⟩
          · exact Or.inr ⟨outcome :: outcomes, phase, later, rfl, unfinished⟩
      | waiting => exact Or.inr ⟨[], _, rest, rfl, nofun⟩
      | lowered result => exact Or.inr ⟨[], _, rest, rfl, nofun⟩

theorem finished_or_step (parallel : Bool) (run : Nat → Option (Restart Float)) (pool : Pool) :
    (∃ outcomes : List (Option (Restart Float)), pool.phases = outcomes.map .finished) ∨
      ∃ next, Step parallel run pool next := by
  refine (phases_cases pool.phases).imp_right ?_
  rintro ⟨outcomes, phase, rest, shape, unfinished⟩
  -- The first restart that has not finished may go on in any case: all before it have.
  obtain ⟨after, advances⟩ := Phase.advances_exists (run outcomes.length) unfinished
  refine ⟨_, .advance (by simp [shape]) advances fun _ earlier before => ?_⟩
  exact ⟨outcomes[earlier], by simp [shape, List.getElem?_append_left, before]⟩

theorem ends_exists (parallel : Bool) (run : Nat → Option (Restart Float)) (pool : Pool) :
    ∃ outcomes, Ends parallel run pool outcomes := by
  -- Every step makes the pool lighter, whichever restart takes it.
  induction heavy : pool.weight using Nat.strong_induction_on generalizing pool with
  | _ weight ih =>
      rcases finished_or_step parallel run pool with ⟨outcomes, finished⟩ | ⟨next, step⟩
      · refine ⟨outcomes, pool.least, ?_⟩
        rw [← finished]
      · obtain ⟨outcomes, least, steps⟩ := ih next.weight (heavy ▸ step.lighter) next rfl
        exact ⟨outcomes, least, .head step steps⟩

end Pool

/-! ## Searches on a schedule -/

/-- What may be selected for one number of layers: the restarts run to their end on some schedule,
and their outcomes are reduced in some order and in some groups. -/
def Selects (config : Config Float) (ansatz : Ansatz Float) (target : Operator Float)
    (warm : Option (List Float)) (choice : Option (Restart Float)) : Prop :=
  ∃ outcomes, Pool.Ends config.parallel (restart config ansatz target warm)
      (Pool.start config.restarts) outcomes ∧
    ∃ grouping : Grouping Float, grouping.outcomes.Perm outcomes ∧ grouping.select = choice

/-- A search whose restarts run on some schedule for every number of layers. -/
inductive Climbs (config : Config Float) (family : Family) (generator : Generator Float)
    (target : Operator Float) :
    Nat → Nat → Progress Float → Except (CompileError Float) (Synthesis Float) → Prop
  | exhausted {layers : Nat} {progress : Progress Float} :
      Climbs config family generator target 0 layers progress
        (.error (.unreachable (progress.best.getD Scalar.unbounded) config.maxLayers
          config.tolerance progress.layerDistances.reverse))
  | crowded {remaining layers : Nat} {progress : Progress Float} {cause : Error}
      (room : checkAngles config ⟨generator, layers⟩ progress.warm = .error cause) :
      Climbs config family generator target (remaining + 1) layers progress
        (.error (.circuit cause))
  | lost {remaining layers : Nat} {progress : Progress Float}
      {result : Except (CompileError Float) (Synthesis Float)}
      (room : checkAngles config ⟨generator, layers⟩ progress.warm = .ok ())
      (selects : Selects config ⟨generator, layers⟩ target progress.warm none)
      (climbs : Climbs config family generator target remaining (layers + 1) progress.lost
        result) :
      Climbs config family generator target (remaining + 1) layers progress result
  | stop {remaining layers : Nat} {progress : Progress Float} {best : Restart Float}
      (room : checkAngles config ⟨generator, layers⟩ progress.warm = .ok ())
      (selects : Selects config ⟨generator, layers⟩ target progress.warm (some best))
      (content : Content config best.distance) :
      Climbs config family generator target (remaining + 1) layers progress
        (report family ⟨generator, layers⟩ progress best)
  | next {remaining layers : Nat} {progress : Progress Float} {best : Restart Float}
      {result : Except (CompileError Float) (Synthesis Float)}
      (room : checkAngles config ⟨generator, layers⟩ progress.warm = .ok ())
      (selects : Selects config ⟨generator, layers⟩ target progress.warm (some best))
      (outside : ¬ Content config best.distance)
      (climbs : Climbs config family generator target remaining (layers + 1)
        (progress.next best) result) :
      Climbs config family generator target (remaining + 1) layers progress result

variable {config : Config Float} {family : Family} {generator : Generator Float}
  {target : Operator Float} {ansatz : Ansatz Float} {warm : Option (List Float)}
  {choice : Option (Restart Float)} {remaining layers : Nat} {progress : Progress Float}
  {result : Except (CompileError Float) (Synthesis Float)}

theorem index_restart {index : Nat} {result : Restart Float}
    (made : restart config ansatz target warm index = some result) : result.index = index := by
  unfold restart at made
  dsimp only at made
  split at made
  · cases made
    rfl
  · cases made

theorem nodup_restarts (config : Config Float) (ansatz : Ansatz Float) (target : Operator Float)
    (warm : Option (List Float)) (count : Nat) :
    ((((List.range count).map (restart config ansatz target warm)).reduceOption).map
      Restart.index).Nodup := by
  rw [List.reduceOption, List.filterMap_map, List.map_filterMap]
  refine List.Nodup.filterMap (fun first second index made again => ?_) List.nodup_range
  obtain ⟨r, rMade, rIndex⟩ := Option.map_eq_some_iff.mp made
  obtain ⟨s, sMade, sIndex⟩ := Option.map_eq_some_iff.mp again
  rw [← index_restart rMade, ← index_restart sMade, rIndex, sIndex]

theorem selects_iff : Selects config ansatz target warm choice ↔
    bestRestart config ansatz target warm = choice := by
  have best : Restart.best ((List.range config.restarts).map
      (restart config ansatz target warm)).reduceOption =
      bestRestart config ansatz target warm := by
    rw [List.reduceOption, List.filterMap_map]
    rfl
  have distinct := nodup_restarts config ansatz target warm config.restarts
  constructor
  · rintro ⟨outcomes, ends, grouping, same, rfl⟩
    rw [Pool.outcomes_of_ends ends] at same
    rw [Grouping.select_eq_best distinct same, best]
  · rintro rfl
    obtain ⟨outcomes, ends⟩ := Pool.ends_exists config.parallel
      (restart config ansatz target warm) (Pool.start config.restarts)
    refine ⟨outcomes, ends, .group (outcomes.map .outcome), .of_eq (Grouping.outcomes_flat _), ?_⟩
    rw [Pool.outcomes_of_ends ends]
    rw [Grouping.select_eq_best distinct (.of_eq (Grouping.outcomes_flat _)), best]

/-- Whatever the schedules, a search climbs as it does with one restart after the other. -/
theorem climbs_iff : Climbs config family generator target remaining layers progress result ↔
    result = climb config family generator target remaining layers progress := by
  constructor
  · intro climbs
    induction climbs with
    | exhausted => rfl
    | crowded room => exact (climb_crowded room _).symm
    | lost room selects _ ih => rw [ih, climb_lost room (selects_iff.mp selects)]
    | stop room selects content => exact (climb_stop room (selects_iff.mp selects) content _).symm
    | next room selects outside _ ih => rw [ih, climb_next room (selects_iff.mp selects) outside]
  · rintro rfl
    induction remaining generalizing layers progress with
    | zero => exact .exhausted
    | succ remaining ih =>
        cases room : checkAngles config ⟨generator, layers⟩ progress.warm with
        | error cause =>
            rw [climb_crowded room]
            exact .crowded room
        | ok =>
            cases chosen : bestRestart config ⟨generator, layers⟩ target progress.warm with
            | none =>
                rw [climb_lost room chosen]
                exact .lost room (selects_iff.mpr chosen) ih
            | some best =>
                by_cases content : Content config best.distance
                · rw [climb_stop room chosen content]
                  exact .stop room (selects_iff.mpr chosen) content
                · rw [climb_next room chosen content]
                  exact .next room (selects_iff.mpr chosen) content ih

/-- What a search checks before its first restart, and the generator it goes on with. -/
def prepare (config : Config Float) (family : Family) (target : Operator Float)
    (dims : Nat × Nat) : Except (CompileError Float) (Generator Float) := do
  config.validate
  let expected ← word (dims.1 * dims.2)
  if target.dim ≠ expected then
    throw (.circuit (.dimensionMismatch "variational_compile" target.dim expected))
  let generator ← family.generator dims
  checkRoom config
  return generator

/-- What a search may answer whose restarts run on some schedule for every number of layers. -/
inductive Synthesizes (config : Config Float) (family : Family) (target : Operator Float)
    (dims : Nat × Nat) : Except (CompileError Float) (Synthesis Float) → Prop
  | refused {cause : CompileError Float}
      (refused : prepare config family target dims = .error cause) :
      Synthesizes config family target dims (.error cause)
  | climbs {generator : Generator Float} {result : Except (CompileError Float) (Synthesis Float)}
      (prepared : prepare config family target dims = .ok generator)
      (climbs : Climbs config family generator target config.maxLayers 1 {} result) :
      Synthesizes config family target dims result

theorem synthesizeWith_eq_prepare (config : Config Float) (family : Family)
    (target : Operator Float) (dims : Nat × Nat) :
    synthesizeWith config family target dims = (do
      let generator ← prepare config family target dims
      climb config family generator target config.maxLayers 1 {}) := by
  simp only [synthesizeWith, prepare, bind_assoc]
  refine bind_congr fun _ => bind_congr fun expected => ?_
  split <;> simp [bind_assoc]

theorem bestRestart_parallel (config : Config Float) (parallel : Bool) :
    bestRestart { config with parallel } ansatz target warm =
      bestRestart config ansatz target warm := rfl

theorem checkAngles_parallel (config : Config Float) (parallel : Bool) :
    checkAngles { config with parallel } ansatz warm = checkAngles config ansatz warm := rfl

/-- The flag is read by the schedule alone. -/
theorem climb_parallel (config : Config Float) (parallel : Bool) :
    climb { config with parallel } family generator target remaining layers progress =
      climb config family generator target remaining layers progress := by
  induction remaining generalizing layers progress with
  | zero => rfl
  | succ remaining ih => simp only [climb, bestRestart_parallel, checkAngles_parallel, ih]

theorem synthesizeWith_parallel (config : Config Float) (parallel : Bool) (family : Family)
    (target : Operator Float) (dims : Nat × Nat) :
    synthesizeWith { config with parallel } family target dims =
      synthesizeWith config family target dims := by
  rw [synthesizeWith_eq_prepare, synthesizeWith_eq_prepare]
  exact bind_congr fun generator => climb_parallel config parallel

theorem synthesizes_iff {dims : Nat × Nat} : Synthesizes config family target dims result ↔
    result = synthesizeWith config family target dims := by
  rw [synthesizeWith_eq_prepare]
  constructor
  · intro synthesizes
    cases synthesizes with
    | refused refused => rw [refused]; rfl
    | climbs prepared climbs =>
        rw [prepared]
        exact climbs_iff.mp climbs
  · rintro rfl
    cases prepared : prepare config family target dims with
    | error cause => exact .refused prepared
    | ok generator => exact .climbs prepared (climbs_iff.mpr rfl)

end Search

/-- The restart that is selected does not depend on the order or the groups in which outcomes come:
it is the one of the least distance and, among equal distances, of the least index, and there is
none only if all outcomes were discarded. So a search gives the same answer on every schedule of its
restarts, side by side or one after the other. -/
theorem selection_unscheduled :
    (∀ outcomes : List (Option (Restart Float)),
      (outcomes.reduceOption.map Restart.index).Nodup →
      (∀ grouping : Grouping Float, grouping.outcomes.Perm outcomes →
        grouping.select = Restart.best outcomes.reduceOption) ∧
      (Restart.best outcomes.reduceOption = none ↔ ∀ outcome ∈ outcomes, outcome = none) ∧
      (∀ r, Restart.best outcomes.reduceOption = some r ↔
        some r ∈ outcomes ∧ ∀ s, some s ∈ outcomes → s ≠ r →
          Double.totalKey r.distance < Double.totalKey s.distance ∨
            r.distance = s.distance ∧ r.index < s.index) ∧
      ∀ r, Restart.best outcomes.reduceOption = some r →
        ∀ s, some s ∈ outcomes → ¬ s.distance < r.distance) ∧
    ∀ (config : Config Float) (parallel : Bool) (family : Family) (target : Operator Float)
      (dims : Nat × Nat) (result : Except (CompileError Float) (Synthesis Float)),
      Search.Synthesizes { config with parallel } family target dims result ↔
        result = Search.synthesizeWith config family target dims := by
  constructor
  · intro outcomes distinct
    refine ⟨fun grouping => Grouping.select_eq_best distinct, ?_, fun r => ?_, ?_⟩
    · rw [Restart.best_eq_none_iff]
      exact List.filterMap_eq_nil_iff
    · rw [Restart.best_eq_some_iff distinct]
      simp only [List.reduceOption_mem_iff, Restart.rank_lt_iff]
    · intro r chosen s listed
      have least := Restart.least_best outcomes.reduceOption
      rw [chosen] at least
      exact least.not_lt (List.reduceOption_mem_iff.mpr listed)
  · intro config parallel family target dims result
    rw [Search.synthesizes_iff, Search.synthesizeWith_parallel]

theorem selection_unscheduled_groups :
    let early : Restart Float := ⟨0, 0.5, []⟩
    let late : Restart Float := ⟨2, 0.5, [1]⟩
    let outcomes := [some early, some ⟨1, 0.75, []⟩, none, some late]
    let grouping : Grouping Float := .group [.outcome (some late), .group [.outcome none,
      .outcome (some ⟨1, 0.75, []⟩)], .outcome (some early)]
    grouping.outcomes.Perm outcomes ∧ grouping.select = some early ∧
      Search.Synthesizes { Config.standard with parallel := true } .ms (.identity 4) (2, 2)
        (Search.synthesizeWith { Config.standard with parallel := false } .ms (.identity 4)
          (2, 2)) := by
  intro early late outcomes grouping
  have perm : grouping.outcomes.Perm outcomes := List.reverse_perm outcomes
  obtain ⟨selected, scheduled⟩ := selection_unscheduled
  obtain ⟨same, _, least, _⟩ := selected outcomes (by decide)
  refine ⟨perm, (same grouping perm).trans ((least early).mpr ⟨?_, ?_⟩), ?_⟩
  · exact List.mem_cons_self
  · simp only [outcomes, List.mem_cons, List.not_mem_nil, or_false, Option.some.injEq, reduceCtorEq,
      false_or]
    rintro s (rfl | rfl | rfl) different
    · exact absurd rfl different
    · exact Or.inl (by decide +kernel)
    · exact Or.inr ⟨rfl, by decide⟩
  · exact (scheduled { Config.standard with parallel := false } true .ms (.identity 4) (2, 2) _).mpr
      rfl

end QuditSynth
