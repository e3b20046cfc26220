import Mathlib.Order.WellFounded
import TcpMonitor.Core.Simulation

/-!
# What happens eventually

An execution goes on for ever: at each instant one label is performed, or
nothing happens.  Nothing happens eventually unless the schedule is fair to some
kind of label.  Two forms of fairness and two rules are all that is needed: a
kind of label that stays possible is taken, and what lowers a rank again and
again reaches its goal.
-/

namespace TcpMonitor.Liveness

open TcpMonitor.TransitionSystem
open TcpMonitor.Simulation

variable {State Label : Type*} {step : State → Label → Option State}

/-- The states of a system at all instants, and the label performed from each to
the next. -/
structure Execution (step : State → Label → Option State) where
  state : ℕ → State
  label : ℕ → Option Label
  next : ∀ time, match label time with
    | none => state (time + 1) = state time
    | some performed => step (state time) performed = some (state (time + 1))

/-- A label of this kind is possible. -/
def Enabled (step : State → Label → Option State) (kind : Label → Prop) (state : State) : Prop :=
  ∃ label next, kind label ∧ step state label = some next

namespace Execution

variable {execution : Execution step} {kind : Label → Prop} {time later : ℕ}

/-- A label of this kind is performed. -/
def Takes (execution : Execution step) (kind : Label → Prop) (time : ℕ) : Prop :=
  ∃ label, execution.label time = some label ∧ kind label

/-- What stays possible is taken. -/
def WeaklyFair (execution : Execution step) (kind : Label → Prop) : Prop :=
  ∀ time, (∀ later ≥ time, Enabled step kind (execution.state later)) →
    ∃ later ≥ time, execution.Takes kind later

/-- What is possible again and again is taken. -/
def StronglyFair (execution : Execution step) (kind : Label → Prop) : Prop :=
  ∀ time, (∀ later ≥ time, ∃ latest ≥ later, Enabled step kind (execution.state latest)) →
    ∃ later ≥ time, execution.Takes kind later

/-- Nothing happens at this instant, or one step. -/
theorem step_cases (execution : Execution step) (time : ℕ) :
    (execution.label time = none ∧ execution.state (time + 1) = execution.state time) ∨
      ∃ label, execution.label time = some label ∧
        step (execution.state time) label = some (execution.state (time + 1)) := by
  have hnext := execution.next time
  split at hnext
  · next hlabel => exact Or.inl ⟨hlabel, hnext⟩
  · next label hlabel => exact Or.inr ⟨label, hlabel, hnext⟩

/-- A label that is performed leads to the next state. -/
theorem Takes.performed (htakes : execution.Takes kind time) :
    ∃ label, kind label ∧
      step (execution.state time) label = some (execution.state (time + 1)) := by
  obtain ⟨label, hlabel, hkind⟩ := htakes
  have hnext := execution.next time
  rw [hlabel] at hnext
  exact ⟨label, hkind, hnext⟩

theorem reachable_of_le (execution : Execution step) (hle : time ≤ later) :
    Reachable step (execution.state time) (execution.state later) := by
  induction later, hle using Nat.le_induction with
  | base => exact Reachable.refl _
  | succ later hle ih =>
      rcases execution.step_cases later with ⟨-, hsame⟩ | ⟨label, -, hstep⟩
      · rwa [hsame]
      · exact ih.tail hstep

/-- What one step keeps from this instant on holds from this instant on. -/
theorem always {P : State → Prop} (hfirst : P (execution.state time))
    (hkeep : ∀ later ≥ time, P (execution.state later) → P (execution.state (later + 1))) :
    ∀ later ≥ time, P (execution.state later) := by
  intro later hle
  induction later, hle using Nat.le_induction with
  | base => exact hfirst
  | succ later hle ih => exact hkeep later hle ih

/-- What ends at some instant ends with the step from one instant to the next. -/
theorem exists_end {P : State → Prop} (hfirst : P (execution.state time))
    (hend : ∃ later ≥ time, ¬P (execution.state later)) :
    ∃ later ≥ time, P (execution.state later) ∧ ¬P (execution.state (later + 1)) := by
  by_contra hnever
  obtain ⟨later, hle, hlater⟩ := hend
  refine hlater (always hfirst ?_ later hle)
  intro latest hlatest hholds
  by_contra hends
  exact hnever ⟨latest, hlatest, hholds, hends⟩

/-- A kind of label that is possible as long as it is not taken is taken. -/
theorem WeaklyFair.taken (hfair : execution.WeaklyFair kind) {P : State → Prop}
    (hfirst : P (execution.state time))
    (henabled : ∀ later ≥ time, P (execution.state later) →
      Enabled step kind (execution.state later))
    (hkeep : ∀ later ≥ time, P (execution.state later) → ¬execution.Takes kind later →
      P (execution.state (later + 1))) :
    ∃ later ≥ time, P (execution.state later) ∧ execution.Takes kind later := by
  by_contra hnever
  have hall : ∀ later ≥ time, P (execution.state later) :=
    always hfirst fun later hle hlater =>
      hkeep later hle hlater fun htakes => hnever ⟨later, hle, hlater, htakes⟩
  obtain ⟨later, hle, htakes⟩ := hfair time fun later hle => henabled later hle (hall later hle)
  exact hnever ⟨later, hle, hall later hle, htakes⟩

/-- The same for a kind of label that is possible again and again. -/
theorem StronglyFair.taken (hfair : execution.StronglyFair kind) {P : State → Prop}
    (hfirst : P (execution.state time))
    (henabled : ∀ later ≥ time, P (execution.state later) →
      ∃ latest ≥ later, Enabled step kind (execution.state latest))
    (hkeep : ∀ later ≥ time, P (execution.state later) → ¬execution.Takes kind later →
      P (execution.state (later + 1))) :
    ∃ later ≥ time, P (execution.state later) ∧ execution.Takes kind later := by
  by_contra hnever
  have hall : ∀ later ≥ time, P (execution.state later) :=
    always hfirst fun later hle hlater =>
      hkeep later hle hlater fun htakes => hnever ⟨later, hle, hlater, htakes⟩
  obtain ⟨later, hle, htakes⟩ := hfair time fun later hle => henabled later hle (hall later hle)
  exact hnever ⟨later, hle, hall later hle, htakes⟩

/-- A goal is reached if from every instant at which it is not reached, it or a
lower rank comes. -/
theorem eventually_of_rank {Rank : Type*} [LT Rank] [WellFoundedLT Rank] (rank : State → Rank)
    {Goal : State → Prop}
    (hprogress : ∀ later ≥ time, ¬Goal (execution.state later) → ∃ latest ≥ later,
      Goal (execution.state latest) ∨
        rank (execution.state latest) < rank (execution.state later)) :
    ∃ later ≥ time, Goal (execution.state later) := by
  suffices hfrom : ∀ value, ∀ later ≥ time, rank (execution.state later) = value →
      ∃ latest ≥ later, Goal (execution.state latest) from
    hfrom _ time (Nat.le_refl time) rfl
  intro value
  induction value using WellFoundedLT.induction with
  | ind value ih =>
      rintro later hle rfl
      by_cases hgoal : Goal (execution.state later)
      · exact ⟨later, Nat.le_refl later, hgoal⟩
      · obtain ⟨latest, hlatest, hreached | hlower⟩ := hprogress later hle hgoal
        · exact ⟨latest, hlatest, hreached⟩
        · obtain ⟨last, hlast, hreached⟩ := ih _ hlower latest (Nat.le_trans hle hlatest) rfl
          exact ⟨last, Nat.le_trans hlatest hlast, hreached⟩

section Views

variable {State' Label' : Type*} {step' : State' → Label' → Option State'}
variable {view : State → State'} {image : State → Label → Option Label'}

/-- What is seen of an execution. -/
def seen (execution : Execution step) (view : State → State')
    (image : State → Label → Option Label')
    (hseen : ∀ time label, execution.label time = some label →
      SeenAs step' (view (execution.state time)) (view (execution.state (time + 1)))
        (image (execution.state time) label)) : Execution step' where
  state time := view (execution.state time)
  label time := (execution.label time).bind (image (execution.state time))
  next time := by
    cases hlabel : execution.label time with
    | none =>
        rcases execution.step_cases time with ⟨-, hsame⟩ | ⟨label, hother, -⟩
        · exact congrArg view hsame
        · rw [hlabel] at hother
          cases hother
    | some label =>
        have hstep := hseen time label hlabel
        rw [Option.bind_some]
        cases himage : image (execution.state time) label with
        | none =>
            rw [himage] at hstep
            exact hstep
        | some label' =>
            rw [himage] at hstep
            exact hstep

variable {hseen : ∀ time label, execution.label time = some label →
  SeenAs step' (view (execution.state time)) (view (execution.state (time + 1)))
    (image (execution.state time) label)}
variable {kind' : Label' → Prop}

theorem Takes.seen
    (himage : ∀ state label, kind label → ∃ label', image state label = some label' ∧ kind' label')
    (htakes : execution.Takes kind time) : (execution.seen view image hseen).Takes kind' time := by
  obtain ⟨label, hlabel, hkind⟩ := htakes
  obtain ⟨label', hlabel', hkind'⟩ := himage (execution.state time) label hkind
  refine ⟨label', ?_, hkind'⟩
  simp only [Execution.seen, hlabel, Option.bind_some, hlabel']

/-- Fairness is seen, if whatever is possible in the view is possible. -/
theorem WeaklyFair.seen
    (himage : ∀ state label, kind label → ∃ label', image state label = some label' ∧ kind' label')
    (henabled : ∀ time, Enabled step' kind' (view (execution.state time)) →
      Enabled step kind (execution.state time))
    (hfair : execution.WeaklyFair kind) : (execution.seen view image hseen).WeaklyFair kind' := by
  intro time hall
  obtain ⟨later, hle, htakes⟩ := hfair time fun later hle => henabled later (hall later hle)
  exact ⟨later, hle, htakes.seen himage⟩

theorem StronglyFair.seen
    (himage : ∀ state label, kind label → ∃ label', image state label = some label' ∧ kind' label')
    (henabled : ∀ time, Enabled step' kind' (view (execution.state time)) →
      Enabled step kind (execution.state time))
    (hfair : execution.StronglyFair kind) :
    (execution.seen view image hseen).StronglyFair kind' := by
  intro time hagain
  obtain ⟨later, hle, htakes⟩ := hfair time fun later hle => by
    obtain ⟨latest, hlatest, hpossible⟩ := hagain later hle
    exact ⟨latest, hlatest, henabled latest hpossible⟩
  exact ⟨later, hle, htakes.seen himage⟩

end Views

section FiniteRun

variable {first last : State} {labels : List Label}

/-- A run after which nothing happens any more. -/
def ofRun (hrun : run step first labels = some last) : Execution step where
  state time := (run step first (labels.take time)).getD last
  label time := labels[time]?
  next time := by
    have hprefix : ∃ middle, run step first (labels.take time) = some middle ∧
        run step middle (labels.drop time) = some last := by
      rw [← run_append_eq_some, List.take_append_drop, hrun]
    obtain ⟨middle, hfront, hback⟩ := hprefix
    cases hlabel : labels[time]? with
    | none =>
        have hlength := List.getElem?_eq_none_iff.mp hlabel
        dsimp only
        rw [List.take_of_length_le hlength, List.take_of_length_le (Nat.le_succ_of_le hlength)]
    | some label =>
        obtain ⟨hlt, hget⟩ := List.getElem?_eq_some_iff.mp hlabel
        rw [List.drop_eq_getElem_cons hlt, hget, run_cons_eq_some] at hback
        obtain ⟨next, hstep, -⟩ := hback
        have hnext : run step first (labels.take (time + 1)) = some next := by
          rw [List.take_add_one, hlabel, run_append, hfront, Option.bind_some, Option.toList_some,
            run_cons, hstep]
          rfl
        simp only [hfront, hnext, Option.getD_some, hstep]

theorem ofRun_state_zero (hrun : run step first labels = some last) :
    (ofRun hrun).state 0 = first := rfl

/-- The run has come to its end. -/
theorem ofRun_state_of_le (hrun : run step first labels = some last)
    (hle : labels.length ≤ time) : (ofRun hrun).state time = last := by
  simp only [ofRun, List.take_of_length_le hle, hrun, Option.getD_some]

/-- The state at the end of the first part of the run. -/
theorem ofRun_state_length {middle : State} {front back : List Label}
    (hrun : run step first (front ++ back) = some last)
    (hfront : run step first front = some middle) :
    (ofRun hrun).state front.length = middle := by
  simp only [ofRun, List.take_left', hfront, Option.getD_some]

/-- A run at whose end a kind of label is impossible is fair to it. -/
theorem ofRun_stronglyFair (hrun : run step first labels = some last)
    (hdisabled : ¬Enabled step kind last) : (ofRun hrun).StronglyFair kind := by
  intro time henabled
  obtain ⟨latest, hlatest, hlabel⟩ := henabled (max time labels.length) (Nat.le_max_left _ _)
  rw [ofRun_state_of_le hrun (Nat.le_trans (Nat.le_max_right _ _) hlatest)] at hlabel
  exact absurd hlabel hdisabled

/-- What is possible again and again is in particular taken when it stays
possible. -/
theorem StronglyFair.weaklyFair (hfair : execution.StronglyFair kind) :
    execution.WeaklyFair kind :=
  fun time henabled => hfair time fun later hle => ⟨later, Nat.le_refl later, henabled later hle⟩

end FiniteRun

end Execution

end TcpMonitor.Liveness
