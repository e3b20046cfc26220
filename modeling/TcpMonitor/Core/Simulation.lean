import TcpMonitor.Core.TransitionSystem

/-!
# One system followed by another

A view of the states of a concrete system follows an abstract one if every
concrete step is invisible or a step of the abstract system.  The step may be
judged under an invariant of the concrete system.  Reachable states are then
seen as reachable states, so that every invariant of the abstract system holds
of what is seen of the concrete one.
-/

namespace TcpMonitor.Simulation

open TcpMonitor.TransitionSystem

variable {State Label State' Label' : Type*}

/-- Under the invariant, the view of a step is a step or nothing. -/
structure Follows (step : State → Label → Option State) (step' : State' → Label' → Option State')
    (Inv : State → Prop) (view : State → State') : Prop where
  keeps : ∀ {state label next}, Inv state → step state label = some next → Inv next
  follows : ∀ {state label next}, Inv state → step state label = some next →
    view next = view state ∨ ∃ label', step' (view state) label' = some (view next)

variable {step : State → Label → Option State} {step' : State' → Label' → Option State'}
variable {Inv : State → Prop} {view : State → State'} {first last : State}

/-- What is seen of a step is this label, or nothing. -/
def SeenAs (step' : State' → Label' → Option State') (before after : State') :
    Option Label' → Prop
  | none => after = before
  | some label => step' before label = some after

theorem SeenAs.follows {before after : State'} {image : Option Label'}
    (hseen : SeenAs step' before after image) :
    after = before ∨ ∃ label, step' before label = some after := by
  cases image with
  | none => exact Or.inl hseen
  | some label => exact Or.inr ⟨label, hseen⟩

/-- A run is seen as a run that takes no more steps. -/
theorem Follows.run (hfollows : Follows step step' Inv view) (hfirst : Inv first)
    {labels : List Label} (hrun : run step first labels = some last) :
    Inv last ∧ ∃ labels' : List Label', labels'.length ≤ labels.length ∧
      TransitionSystem.run step' (view first) labels' = some (view last) := by
  induction labels generalizing first with
  | nil =>
      cases hrun
      exact ⟨hfirst, [], Nat.le_refl 0, rfl⟩
  | cons label labels ih =>
      obtain ⟨next, hstep, hrest⟩ := run_cons_eq_some.mp hrun
      obtain ⟨hlast, labels', hlength, hrun'⟩ := ih (hfollows.keeps hfirst hstep) hrest
      refine ⟨hlast, ?_⟩
      rcases hfollows.follows hfirst hstep with hsame | ⟨label', hstep'⟩
      · rw [hsame] at hrun'
        exact ⟨labels', Nat.le_succ_of_le hlength, hrun'⟩
      · exact ⟨label' :: labels', Nat.succ_le_succ hlength,
          run_cons_eq_some.mpr ⟨view next, hstep', hrun'⟩⟩

theorem Follows.invariant (hfollows : Follows step step' Inv view) (hfirst : Inv first)
    (hreach : Reachable step first last) : Inv last := by
  obtain ⟨labels, hrun⟩ := hreach
  exact (hfollows.run hfirst hrun).1

/-- What is seen of a reachable state is reachable. -/
theorem Follows.reachable (hfollows : Follows step step' Inv view) (hfirst : Inv first)
    (hreach : Reachable step first last) : Reachable step' (view first) (view last) := by
  obtain ⟨labels, hrun⟩ := hreach
  obtain ⟨-, labels', -, hrun'⟩ := hfollows.run hfirst hrun
  exact ⟨labels', hrun'⟩

end TcpMonitor.Simulation
