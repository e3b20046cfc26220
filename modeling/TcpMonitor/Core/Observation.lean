import TcpMonitor.Core.TransitionSystem

/-!
# What an observer of the labels can tell

An observer reads the labels of a run one by one, keeps a state of its own and
writes a mark for each of them.  If a system that is driven by the marks alone
does in every step what the erased states of another system do, then the marks
determine the erased runs: two runs of which an observer sees the same end in
states that erase to the same one.  A relation between two runs is thus reduced
to a property of single steps.
-/

namespace TcpMonitor.Observation

open TcpMonitor.TransitionSystem

variable {State Label Shadow Mark View : Type*}

section Observer

variable (mark : View → Label → Mark) (after : View → Label → View)

/-- The marks an observer writes, from its state `view` on. -/
def observe : View → List Label → List Mark
  | _, [] => []
  | view, label :: labels => mark view label :: observe (after view label) labels

end Observer

variable {mark : View → Label → Mark} {after : View → Label → View}
variable {step : State → Label → Option State} {shadow : Shadow → Mark → Option Shadow}
variable {erase : State → Shadow} {Fits : View → State → Prop}

/-- The shadow system follows every run, and takes no run of its own. -/
theorem run_observe
    (hcommute : ∀ view state label, Fits view state →
      shadow (erase state) (mark view label) = (step state label).map erase)
    (hkeep : ∀ view state label next, Fits view state → step state label = some next →
      Fits (after view label) next)
    {view : View} {state : State} (hfits : Fits view state) (labels : List Label) :
    run shadow (erase state) (observe mark after view labels) =
      (run step state labels).map erase := by
  induction labels generalizing view state with
  | nil => rfl
  | cons label labels ih =>
      rw [observe, run_cons, run_cons, hcommute view state label hfits]
      cases hstep : step state label with
      | none => rfl
      | some next => exact ih (hkeep view state label next hfits hstep)

/-- A run that looks the same is possible too, and ends in a state that erases
to the same one. -/
theorem exists_run_of_observe_eq
    (hcommute : ∀ view state label, Fits view state →
      shadow (erase state) (mark view label) = (step state label).map erase)
    (hkeep : ∀ view state label next, Fits view state → step state label = some next →
      Fits (after view label) next)
    {view : View} {state last : State} (hfits : Fits view state) {left right : List Label}
    (hsame : observe mark after view left = observe mark after view right)
    (hleft : run step state left = some last) :
    ∃ last', run step state right = some last' ∧ erase last = erase last' := by
  have hfollow := run_observe hcommute hkeep hfits left
  rw [hsame, run_observe hcommute hkeep hfits right, hleft, Option.map_some,
    Option.map_eq_some_iff] at hfollow
  obtain ⟨last', hright, herase⟩ := hfollow
  exact ⟨last', hright, herase.symm⟩

end TcpMonitor.Observation
