import Mathlib.Data.List.Nodup
import Mathlib.Data.List.ReduceOption
import Mathlib.Order.MinMax
import QuditSynth.Proofs.Scalar.TotalOrder
import QuditSynth.Synthesis.Search

namespace QuditSynth

/-! # Selection among restarts

Restarts stand in one line, by distance and then by index, so that the first of
some restarts with different indices is the same in whatever order they come and
however they are put into groups.
-/

namespace Restart

/-- Where a restart stands in the line. -/
def rank (restart : Restart Float) : ℕ ×ₗ ℕ :=
  toLex (Double.totalKey restart.distance, restart.index)

variable {r s : Restart Float} {restarts others : List (Restart Float)}
  {choice : Option (Restart Float)}

theorem rank_lt_iff : r.rank < s.rank ↔
    Double.totalKey r.distance < Double.totalKey s.distance ∨
      r.distance = s.distance ∧ r.index < s.index := by
  rw [rank, rank, Prod.Lex.toLex_lt_toLex, Double.totalKey_inj]

theorem beats_iff : r.beats s = true ↔ r.rank < s.rank := by
  change (!decide (Double.totalKey s.distance ≤ Double.totalKey r.distance) ||
    decide (Double.totalKey r.distance ≤ Double.totalKey s.distance) &&
      decide (r.index < s.index)) = true ↔ _
  rw [rank, rank, Prod.Lex.toLex_lt_toLex]
  simp
  omega

theorem rank_better (first second : Restart Float) :
    (better first second).rank = min first.rank second.rank := by
  unfold better
  split
  next wins => exact (min_eq_right (beats_iff.mp wins).le).symm
  next loses => exact (min_eq_left (not_lt.mp (mt beats_iff.mpr loses))).symm

/-! ## The first of some restarts -/

/-- A choice of the first restart, or of none where there is none. -/
def Least (restarts : List (Restart Float)) : Option (Restart Float) → Prop
  | none => restarts = []
  | some r => r ∈ restarts ∧ ∀ s ∈ restarts, r.rank ≤ s.rank

theorem least_foldl (first : Restart Float) (rest : List (Restart Float)) :
    Least (first :: rest) (some (rest.foldl better first)) := by
  -- The better of the first two takes the first place, so `first` varies.
  induction rest generalizing first with
  | nil => exact ⟨List.mem_singleton_self first, List.forall_mem_singleton.mpr le_rfl⟩
  | cons second rest ih =>
      obtain ⟨member, below⟩ := ih (better first second)
      obtain ⟨better_le, below⟩ := List.forall_mem_cons.mp below
      rw [rank_better, le_min_iff] at better_le
      refine ⟨?_, List.forall_mem_cons.mpr ⟨better_le.1, List.forall_mem_cons.mpr
        ⟨better_le.2, below⟩⟩⟩
      rcases List.mem_cons.mp member with picked | later
      · rw [List.foldl_cons, picked, better]
        split <;> simp
      · exact List.mem_cons_of_mem _ (List.mem_cons_of_mem _ later)

theorem least_best (restarts : List (Restart Float)) : Least restarts (best restarts) := by
  cases restarts with
  | nil => rfl
  | cons first rest => exact least_foldl first rest

/-- No distance is below that of the first restart. -/
theorem Least.not_lt (least : Least restarts (some r)) (member : s ∈ restarts) :
    ¬ s.distance < r.distance := by
  intro below
  have before : s.rank < r.rank := rank_lt_iff.mpr (Or.inl (Double.totalKey_lt_of_lt below))
  exact absurd (least.2 s member) (not_le.mpr before)

theorem Least.of_perm (least : Least restarts choice) (same : restarts.Perm others) :
    Least others choice := by
  cases choice with
  | none =>
      cases least
      exact same.symm.eq_nil
  | some r =>
      obtain ⟨member, below⟩ := least
      exact ⟨same.mem_iff.mp member, fun s listed => below s (same.mem_iff.mpr listed)⟩

theorem eq_of_rank_eq (distinct : (restarts.map index).Nodup) (rMember : r ∈ restarts)
    (sMember : s ∈ restarts) (same : r.rank = s.rank) : r = s := by
  have indices : r.index = s.index := congrArg (fun place => (ofLex place).2) same
  exact List.inj_on_of_nodup_map distinct rMember sMember indices

/-- With different indices there is only one choice. -/
theorem Least.unique (distinct : (restarts.map index).Nodup) {other : Option (Restart Float)}
    (first : Least restarts choice) (second : Least restarts other) : choice = other := by
  cases choice with
  | none =>
      cases first
      cases other with
      | none => rfl
      | some s => exact absurd second.1 List.not_mem_nil
  | some r =>
      cases other with
      | none =>
          cases second
          exact absurd first.1 List.not_mem_nil
      | some s =>
          have same := le_antisymm (first.2 s second.1) (second.2 r first.1)
          rw [eq_of_rank_eq distinct first.1 second.1 same]

theorem best_eq_none_iff : best restarts = none ↔ restarts = [] := by
  cases restarts <;> simp [best]

theorem best_eq_some_iff (distinct : (restarts.map index).Nodup) : best restarts = some r ↔
    r ∈ restarts ∧ ∀ s ∈ restarts, s ≠ r → r.rank < s.rank := by
  constructor
  · intro chosen
    have least := least_best restarts
    rw [chosen] at least
    refine ⟨least.1, fun s member different => (least.2 s member).lt_of_ne fun same => ?_⟩
    exact different (eq_of_rank_eq distinct member least.1 same.symm)
  · rintro ⟨member, above⟩
    refine (least_best restarts).unique distinct ⟨member, fun s listed => ?_⟩
    by_cases same : s = r
    · rw [same]
    · exact (above s listed same).le

end Restart

/-! ## Groups of outcomes -/

/-- Outcomes of restarts in groups within groups, in any order. -/
inductive Grouping (R : Type)
  | outcome (result : Option (Restart R))
  | group (parts : List (Grouping R))

namespace Grouping

section Scalars

variable {R : Type}

mutual

def outcomes : Grouping R → List (Option (Restart R))
  | .outcome result => [result]
  | .group parts => outcomesOf parts

def outcomesOf : List (Grouping R) → List (Option (Restart R))
  | [] => []
  | part :: parts => outcomes part ++ outcomesOf parts

end

mutual

/-- Reduces every group on its own, and then what was selected from the groups. -/
def select [Scalar R] : Grouping R → Option (Restart R)
  | .outcome result => result
  | .group parts => Restart.best (selections parts)

def selections [Scalar R] : List (Grouping R) → List (Restart R)
  | [] => []
  | part :: parts => (select part).toList ++ selections parts

end

theorem outcomes_flat (results : List (Option (Restart R))) :
    (group (results.map outcome)).outcomes = results := by
  rw [outcomes]
  induction results with
  | nil => rfl
  | cons result results ih => rw [List.map_cons, outcomesOf, outcomes, ih, List.singleton_append]

end Scalars

/-- Some of the restarts, among them one that no other comes before. -/
structure Represents (chosen restarts : List (Restart Float)) : Prop where
  member : ∀ r ∈ chosen, r ∈ restarts
  below : ∀ s ∈ restarts, ∃ r ∈ chosen, r.rank ≤ s.rank

variable {chosen restarts : List (Restart Float)} {choice : Option (Restart Float)}

theorem Represents.least (represents : Represents chosen restarts)
    (least : Restart.Least chosen choice) : Restart.Least restarts choice := by
  cases choice with
  | none =>
      cases least
      refine List.eq_nil_iff_forall_not_mem.mpr fun s listed => ?_
      obtain ⟨_, absent, _⟩ := represents.below s listed
      exact List.not_mem_nil absent
  | some r =>
      refine ⟨represents.member r least.1, fun s listed => ?_⟩
      obtain ⟨first, picked, below⟩ := represents.below s listed
      exact (least.2 first picked).trans below

theorem represents_toList (least : Restart.Least restarts choice) :
    Represents choice.toList restarts := by
  cases choice with
  | none =>
      cases least
      exact ⟨fun _ => id, fun _ listed => absurd listed List.not_mem_nil⟩
  | some r =>
      refine ⟨?_, fun s listed => ⟨r, List.mem_singleton_self r, least.2 s listed⟩⟩
      exact List.forall_mem_singleton.mpr least.1

theorem Represents.append {others more : List (Restart Float)} (first : Represents chosen restarts)
    (second : Represents others more) : Represents (chosen ++ others) (restarts ++ more) where
  member := List.forall_mem_append.mpr
    ⟨fun r picked => List.mem_append_left _ (first.member r picked),
      fun r picked => List.mem_append_right _ (second.member r picked)⟩
  below := by
    refine List.forall_mem_append.mpr ⟨fun s listed => ?_, fun s listed => ?_⟩
    · obtain ⟨r, picked, below⟩ := first.below s listed
      exact ⟨r, List.mem_append_left _ picked, below⟩
    · obtain ⟨r, picked, below⟩ := second.below s listed
      exact ⟨r, List.mem_append_right _ picked, below⟩

mutual

theorem least_select : ∀ grouping : Grouping Float,
    Restart.Least grouping.outcomes.reduceOption grouping.select
  | .outcome none => rfl
  | .outcome (some r) => Restart.least_best [r]
  | .group parts => (represents_selections parts).least (Restart.least_best _)

theorem represents_selections : ∀ parts : List (Grouping Float),
    Represents (selections parts) (outcomesOf parts).reduceOption
  | [] => ⟨List.forall_mem_nil _, List.forall_mem_nil _⟩
  | part :: parts => by
      rw [selections, outcomesOf, List.reduceOption_append]
      exact (represents_toList (least_select part)).append (represents_selections parts)

end

/-- Neither the order nor the groups of outcomes count. -/
theorem select_eq_best {outcomes : List (Option (Restart Float))}
    (distinct : (outcomes.reduceOption.map Restart.index).Nodup) {grouping : Grouping Float}
    (same : grouping.outcomes.Perm outcomes) :
    grouping.select = Restart.best outcomes.reduceOption := by
  have least := (least_select grouping).of_perm (same.filterMap id)
  exact least.unique distinct (Restart.least_best outcomes.reduceOption)

end Grouping
end QuditSynth
