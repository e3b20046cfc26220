import TcpMonitor.Core.TransitionSystem

/-!
# A transition system on a clock

A system whose steps read a monotonic clock, put next to that clock.  Time
passes between the steps, in jumps that `waits` may bound: a system that never
sleeps past a deadline, or that runs on at once wherever it does not wait, says
so there.  Forgetting the clock gives back a run of the system itself.
-/

namespace TcpMonitor.ClockedSystem

open TcpMonitor.TransitionSystem

/-- A state and the instant at which it is observed. -/
structure Clocked (State : Type*) where
  state : State
  now : ℕ

/-- Time passes, or the system takes a step. -/
inductive ClockedLabel (Label : Type*) where
  | tick (later : ℕ)
  | act (label : Label)

section System

variable {State Label : Type*} {system : State → Label → Option State}
variable {reads : Label → Option ℕ} {waits : State → ℕ → Bool}

/-- One step.  A label that reads the clock reads the present instant. -/
def step (system : State → Label → Option State) (reads : Label → Option ℕ)
    (waits : State → ℕ → Bool) (clocked : Clocked State) :
    ClockedLabel Label → Option (Clocked State)
  | .tick later =>
      if clocked.now ≤ later ∧ waits clocked.state later then
        some { clocked with now := later }
      else none
  | .act label =>
      if reads label = none ∨ reads label = some clocked.now then
        (system clocked.state label).map fun next => { clocked with state := next }
      else none

variable {clocked next : Clocked State}

theorem step_tick_eq_some {later : ℕ} :
    step system reads waits clocked (.tick later) = some next ↔
      (clocked.now ≤ later ∧ waits clocked.state later = true) ∧
        next = { clocked with now := later } := by
  rw [step, Option.ite_none_right_eq_some]
  exact and_congr_right fun _ => by rw [Option.some_inj, eq_comm]

theorem step_act_eq_some {label : Label} :
    step system reads waits clocked (.act label) = some next ↔
      (∀ instant, reads label = some instant → instant = clocked.now) ∧
        ∃ after, system clocked.state label = some after ∧
          next = { clocked with state := after } := by
  have hreads : (reads label = none ∨ reads label = some clocked.now) ↔
      ∀ instant, reads label = some instant → instant = clocked.now := by
    cases reads label with
    | none => simp
    | some instant => simp
  rw [step, Option.ite_none_right_eq_some, hreads, Option.map_eq_some_iff]
  refine and_congr_right fun _ => exists_congr fun after => and_congr_right fun _ => ?_
  exact eq_comm

/-- Everything a step can be. -/
theorem step_cases {label : ClockedLabel Label}
    (hstep : step system reads waits clocked label = some next) :
    (clocked.now ≤ next.now ∧ waits clocked.state next.now = true ∧
        next.state = clocked.state) ∨
      ∃ inner, (∀ instant, reads inner = some instant → instant = clocked.now) ∧
        system clocked.state inner = some next.state ∧ next.now = clocked.now := by
  cases label with
  | tick later =>
      obtain ⟨⟨hlater, hwaits⟩, rfl⟩ := step_tick_eq_some.mp hstep
      exact Or.inl ⟨hlater, hwaits, rfl⟩
  | act inner =>
      obtain ⟨hreads, after, hsystem, rfl⟩ := step_act_eq_some.mp hstep
      exact Or.inr ⟨inner, hreads, hsystem, rfl⟩

/-- What the system does on its clock is a run of the system. -/
theorem reachable_state {first last : Clocked State}
    (hreach : Reachable (step system reads waits) first last) :
    Reachable system first.state last.state := by
  refine hreach.invariant (fun clocked => Reachable system first.state clocked.state)
    (Reachable.refl _) fun clocked label next hclocked hstep => ?_
  rcases step_cases hstep with ⟨-, -, hsame⟩ | ⟨inner, -, hsystem, -⟩
  · rw [hsame]
    exact hclocked
  · exact hclocked.tail hsystem

/-- Time never runs backwards. -/
theorem now_le {first last : Clocked State}
    (hreach : Reachable (step system reads waits) first last) : first.now ≤ last.now := by
  refine hreach.invariant (fun clocked => first.now ≤ clocked.now) (Nat.le_refl _)
    fun clocked label next hclocked hstep => ?_
  rcases step_cases hstep with ⟨hlater, -, -⟩ | ⟨-, -, -, hsame⟩
  · exact Nat.le_trans hclocked hlater
  · rw [hsame]
    exact hclocked

/-- What holds at the start, what time does not break while the system waits,
and what every step of the system keeps. -/
theorem invariant {first last : Clocked State} (Inv : State → ℕ → Prop)
    (hreach : Reachable (step system reads waits) first last)
    (hfirst : Inv first.state first.now)
    (htick : ∀ state now later, Reachable system first.state state → Inv state now →
      now ≤ later → waits state later = true → Inv state later)
    (hact : ∀ state now label next, Reachable system first.state state → Inv state now →
      (∀ instant, reads label = some instant → instant = now) →
        system state label = some next → Inv next now) :
    Inv last.state last.now := by
  refine hreach.invariant_of_reachable (fun clocked => Inv clocked.state clocked.now) hfirst
    fun clocked label next hclocked hinv hstep => ?_
  have hstate := reachable_state hclocked
  rcases step_cases hstep with ⟨hlater, hwaits, hsame⟩ | ⟨inner, hreads, hsystem, hsame⟩
  · rw [hsame]
    exact htick _ _ _ hstate hinv hlater hwaits
  · rw [hsame]
    exact hact _ _ inner _ hstate hinv hreads hsystem

end System

end TcpMonitor.ClockedSystem
