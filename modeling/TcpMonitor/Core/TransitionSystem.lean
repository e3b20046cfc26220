import Mathlib.Data.List.Basic
import Mathlib.Data.Option.Basic

/-!
# Deterministic transition systems driven by labels

A system is a partial step function: a label carries every choice that the
environment, the scheduler or the clock makes, and a label that is impossible
in a state has no successor.  A run is the fold of the step function over a
list of labels, so concrete runs can be evaluated.  This file packages the two
inductions that every development over such a system needs: an invariant of
all reachable states, and the exact set of steps along which a property
survives.
-/

namespace TcpMonitor.TransitionSystem

variable {State Label : Type*}

/-- Perform the labels in order; `none` as soon as one of them is impossible. -/
def run (step : State → Label → Option State) : State → List Label → Option State
  | state, [] => some state
  | state, label :: labels => (step state label).bind fun next => run step next labels

@[simp]
theorem run_nil (step : State → Label → Option State) (state : State) :
    run step state [] = some state := rfl

theorem run_cons (step : State → Label → Option State) (state : State)
    (label : Label) (labels : List Label) :
    run step state (label :: labels) =
      (step state label).bind fun next => run step next labels := rfl

theorem run_cons_eq_some {step : State → Label → Option State} {state last : State}
    {label : Label} {labels : List Label} :
    run step state (label :: labels) = some last ↔
      ∃ next, step state label = some next ∧ run step next labels = some last := by
  rw [run_cons, Option.bind_eq_some_iff]

theorem run_append (step : State → Label → Option State) (state : State)
    (front back : List Label) :
    run step state (front ++ back) =
      (run step state front).bind fun middle => run step middle back := by
  induction front generalizing state with
  | nil => rfl
  | cons label front ih =>
      rw [List.cons_append, run_cons, run_cons, Option.bind_assoc]
      congr 1
      funext next
      exact ih next

theorem run_append_eq_some {step : State → Label → Option State} {state last : State}
    {front back : List Label} :
    run step state (front ++ back) = some last ↔
      ∃ middle, run step state front = some middle ∧ run step middle back = some last := by
  rw [run_append, Option.bind_eq_some_iff]

/-- Some list of labels leads from `first` to `last`. -/
def Reachable (step : State → Label → Option State) (first last : State) : Prop :=
  ∃ labels, run step first labels = some last

namespace Reachable

variable {step : State → Label → Option State} {first middle last : State}

theorem refl (state : State) : Reachable step state state := ⟨[], rfl⟩

theorem of_run {labels : List Label} (hrun : run step first labels = some last) :
    Reachable step first last := ⟨labels, hrun⟩

theorem trans (hfront : Reachable step first middle) (hback : Reachable step middle last) :
    Reachable step first last := by
  obtain ⟨front, hfront⟩ := hfront
  obtain ⟨back, hback⟩ := hback
  exact ⟨front ++ back, run_append_eq_some.mpr ⟨middle, hfront, hback⟩⟩

theorem tail {label : Label} (hreach : Reachable step first middle)
    (hstep : step middle label = some last) : Reachable step first last :=
  hreach.trans ⟨[label], run_cons_eq_some.mpr ⟨last, hstep, rfl⟩⟩

/-- A property that holds at the start and that every step keeps holds in
every reachable state. -/
theorem invariant (Inv : State → Prop) (hreach : Reachable step first last)
    (hfirst : Inv first)
    (hkeep : ∀ state label next, Inv state → step state label = some next → Inv next) :
    Inv last := by
  obtain ⟨labels, hrun⟩ := hreach
  induction labels generalizing first with
  | nil =>
      cases hrun
      exact hfirst
  | cons label labels ih =>
      obtain ⟨next, hstep, hrest⟩ := run_cons_eq_some.mp hrun
      exact ih (hkeep first label next hfirst hstep) hrest

/-- The same for a step that is only known to keep the property in reachable
states. -/
theorem invariant_of_reachable (Inv : State → Prop) (hreach : Reachable step first last)
    (hfirst : Inv first)
    (hkeep : ∀ state label next, Reachable step first state → Inv state →
      step state label = some next → Inv next) :
    Inv last := by
  have hboth := hreach.invariant (fun state => Reachable step first state ∧ Inv state)
    ⟨Reachable.refl first, hfirst⟩ fun state label next hstate hstep =>
      ⟨hstate.1.tail hstep, hkeep state label next hstate.1 hstate.2 hstep⟩
  exact hboth.2

end Reachable

/-! ## Every state and every step of one run -/

/-- The states a run passes through, the first one included. -/
def visited (step : State → Label → Option State) : State → List Label → List State
  | state, [] => [state]
  | state, label :: labels =>
      state :: match step state label with
        | none => []
        | some next => visited step next labels

/-- The steps a run takes, each with the state it is taken in. -/
def taken (step : State → Label → Option State) : State → List Label → List (State × Label)
  | _, [] => []
  | state, label :: labels =>
      match step state label with
      | none => []
      | some next => (state, label) :: taken step next labels

/-- What holds of all labels of a run holds of those it takes. -/
theorem forall_taken_of_forall {step : State → Label → Option State} {first : State}
    {labels : List Label} {P : Label → Prop} (hall : ∀ label ∈ labels, P label) :
    ∀ move ∈ taken step first labels, P move.2 := by
  induction labels generalizing first with
  | nil => simp [taken]
  | cons label labels ih =>
      obtain ⟨hlabel, hrest⟩ := List.forall_mem_cons.mp hall
      cases hstep : step first label with
      | none => simp [taken, hstep]
      | some next =>
          simp only [taken, hstep, List.forall_mem_cons]
          exact ⟨hlabel, ih hrest⟩

theorem mem_visited_self (step : State → Label → Option State) (state : State)
    (labels : List Label) : state ∈ visited step state labels := by
  cases labels <;> simp [visited]

theorem mem_visited_of_run {step : State → Label → Option State} {first last : State}
    {labels : List Label} (hrun : run step first labels = some last) :
    last ∈ visited step first labels := by
  induction labels generalizing first with
  | nil =>
      cases hrun
      exact List.mem_cons_self
  | cons label labels ih =>
      obtain ⟨next, hstep, hrest⟩ := run_cons_eq_some.mp hrun
      simp only [visited, hstep]
      exact List.mem_cons_of_mem first (ih hrest)

theorem reachable_of_mem_visited {step : State → Label → Option State} {first state : State}
    {labels : List Label} (hmem : state ∈ visited step first labels) :
    Reachable step first state := by
  induction labels generalizing first with
  | nil =>
      obtain rfl : state = first := by simpa [visited] using hmem
      exact Reachable.refl _
  | cons label labels ih =>
      rw [visited, List.mem_cons] at hmem
      rcases hmem with rfl | hmem
      · exact Reachable.refl _
      · cases hstep : step first label with
        | none => simp [hstep] at hmem
        | some next =>
            simp only [hstep] at hmem
            exact ((Reachable.refl first).tail hstep).trans (ih hmem)

/-- A step that a run takes leads to a state that the run visits. -/
theorem next_mem_visited_of_taken {step : State → Label → Option State} {first : State}
    {labels : List Label} {move : State × Label} (hmem : move ∈ taken step first labels) :
    ∃ next, step move.1 move.2 = some next ∧ next ∈ visited step first labels := by
  induction labels generalizing first with
  | nil => cases hmem
  | cons label labels ih =>
      cases hstep : step first label with
      | none => simp [taken, hstep] at hmem
      | some next =>
          simp only [taken, hstep, List.mem_cons] at hmem
          simp only [visited, hstep, List.mem_cons]
          rcases hmem with rfl | hmem
          · exact ⟨next, hstep, Or.inr (mem_visited_self step next labels)⟩
          · obtain ⟨last, hlast, hvisited⟩ := ih hmem
            exact ⟨last, hlast, Or.inr hvisited⟩

/-- The system that takes only the steps that are allowed. -/
def restrict (allowed : State → Label → Bool) (step : State → Label → Option State)
    (state : State) (label : Label) : Option State :=
  if allowed state label then step state label else none

theorem restrict_eq_some {allowed : State → Label → Bool} {step : State → Label → Option State}
    {state next : State} {label : Label} :
    restrict allowed step state label = some next ↔
      allowed state label = true ∧ step state label = some next :=
  Option.ite_none_right_eq_some

/-- Its runs are the runs that take only allowed steps. -/
theorem run_restrict_eq_some {allowed : State → Label → Bool}
    {step : State → Label → Option State} {first last : State} {labels : List Label} :
    run (restrict allowed step) first labels = some last ↔
      run step first labels = some last ∧
        ∀ move ∈ taken step first labels, allowed move.1 move.2 = true := by
  induction labels generalizing first with
  | nil => simp [taken]
  | cons label labels ih =>
      simp only [run_cons_eq_some, restrict_eq_some]
      constructor
      · rintro ⟨next, ⟨hallowed, hstep⟩, hrest⟩
        obtain ⟨hrun, hall⟩ := ih.mp hrest
        refine ⟨⟨next, hstep, hrun⟩, ?_⟩
        simp only [taken, hstep, List.forall_mem_cons]
        exact ⟨hallowed, hall⟩
      · rintro ⟨⟨next, hstep, hrun⟩, hall⟩
        simp only [taken, hstep, List.forall_mem_cons] at hall
        exact ⟨next, ⟨hall.1, hstep⟩, ih.mpr ⟨hrun, hall.2⟩⟩

theorem Reachable.of_restrict {allowed : State → Label → Bool}
    {step : State → Label → Option State} {first last : State}
    (hreach : Reachable (restrict allowed step) first last) : Reachable step first last := by
  obtain ⟨labels, hrun⟩ := hreach
  exact ⟨labels, (run_restrict_eq_some.mp hrun).1⟩

theorem Reachable.restrict_mono {allowed allowed' : State → Label → Bool}
    {step : State → Label → Option State} {first last : State}
    (hreach : Reachable (restrict allowed step) first last)
    (hmono : ∀ state label, allowed state label = true → allowed' state label = true) :
    Reachable (restrict allowed' step) first last := by
  obtain ⟨labels, hrun⟩ := hreach
  obtain ⟨hrun, hall⟩ := run_restrict_eq_some.mp hrun
  exact ⟨labels, run_restrict_eq_some.mpr ⟨hrun, fun move hmem => hmono _ _ (hall move hmem)⟩⟩

/-- What every `Safe` step keeps holds in all states of a run of such steps. -/
theorem forall_visited_of_taken {step : State → Label → Option State}
    (Inv : State → Prop) (Safe : State → Label → Prop) {first : State} {labels : List Label}
    (hsafe : ∀ move ∈ taken step first labels, Safe move.1 move.2) (hfirst : Inv first)
    (hkeep : ∀ state label next, Inv state → step state label = some next →
      Safe state label → Inv next) :
    ∀ state ∈ visited step first labels, Inv state := by
  induction labels generalizing first with
  | nil => simpa [visited] using hfirst
  | cons label labels ih =>
      cases hstep : step first label with
      | none => simpa [visited, hstep] using hfirst
      | some next =>
          simp only [taken, hstep, List.forall_mem_cons] at hsafe
          simp only [visited, hstep, List.forall_mem_cons]
          exact ⟨hfirst, ih hsafe.2 (hkeep first label next hfirst hstep hsafe.1)⟩

/-- In particular in its last state. -/
theorem invariant_of_taken {step : State → Label → Option State}
    (Inv : State → Prop) (Safe : State → Label → Prop) {first last : State}
    {labels : List Label} (hrun : run step first labels = some last)
    (hsafe : ∀ move ∈ taken step first labels, Safe move.1 move.2) (hfirst : Inv first)
    (hkeep : ∀ state label next, Inv state → step state label = some next →
      Safe state label → Inv next) :
    Inv last :=
  forall_visited_of_taken Inv Safe hsafe hfirst hkeep last (mem_visited_of_run hrun)

/-- If, from states where `Good` holds, a `Safe` step keeps `Good` and any other
step loses it where it is checked, then `Good` holds wherever it is checked
along a run exactly when all steps of the run are `Safe`. -/
theorem forall_checked_iff {step : State → Label → Option State}
    (Good Checked : State → Prop) (Safe : State → Label → Prop) {first : State}
    (hfirst : Good first)
    (hsafe : ∀ state label next, Reachable step first state → Good state →
      step state label = some next → Safe state label → Good next)
    (hbroken : ∀ state label next, Reachable step first state → Good state →
      step state label = some next → ¬ Safe state label → Checked next ∧ ¬ Good next)
    (labels : List Label) :
    (∀ state ∈ visited step first labels, Checked state → Good state) ↔
      ∀ move ∈ taken step first labels, Safe move.1 move.2 := by
  induction labels generalizing first with
  | nil => simp [visited, taken, hfirst]
  | cons label labels ih =>
      cases hstep : step first label with
      | none => simp [visited, taken, hstep, hfirst]
      | some next =>
          have hextend : ∀ {state}, Reachable step next state → Reachable step first state :=
            fun hreach => ((Reachable.refl first).tail hstep).trans hreach
          have hrest := fun hnext : Good next => ih hnext
            (fun state label after hreach => hsafe state label after (hextend hreach))
            (fun state label after hreach => hbroken state label after (hextend hreach))
          have hhere : Reachable step first first := Reachable.refl first
          simp only [visited, taken, hstep, List.forall_mem_cons]
          constructor
          · rintro ⟨-, hall⟩
            have hlabel : Safe first label := by
              by_contra hnot
              obtain ⟨hchecked, hbad⟩ := hbroken first label next hhere hfirst hstep hnot
              exact hbad (hall next (mem_visited_self step next labels) hchecked)
            exact ⟨hlabel, (hrest (hsafe first label next hhere hfirst hstep hlabel)).mp hall⟩
          · rintro ⟨hlabel, hall⟩
            exact ⟨fun _ => hfirst,
              (hrest (hsafe first label next hhere hfirst hstep hlabel)).mpr hall⟩

/-- The same for a property that is checked everywhere. -/
theorem forall_visited_iff {step : State → Label → Option State}
    (Good : State → Prop) (Safe : State → Label → Prop) {first : State}
    (hfirst : Good first)
    (hiff : ∀ state label next, Reachable step first state → Good state →
      step state label = some next → (Good next ↔ Safe state label))
    (labels : List Label) :
    (∀ state ∈ visited step first labels, Good state) ↔
      ∀ move ∈ taken step first labels, Safe move.1 move.2 := by
  have hchecked := forall_checked_iff Good (fun _ => True) Safe hfirst
    (fun state label next hreach hgood hstep => (hiff state label next hreach hgood hstep).mpr)
    (fun state label next hreach hgood hstep hbroken =>
      ⟨trivial, fun hnext => hbroken ((hiff state label next hreach hgood hstep).mp hnext)⟩)
    labels
  simpa only [true_implies] using hchecked

end TcpMonitor.TransitionSystem
