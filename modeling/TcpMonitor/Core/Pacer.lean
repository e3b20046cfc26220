import Mathlib.Data.List.Basic
import Mathlib.Data.List.Count
import Mathlib.Order.Nat

/-!
# A sender that paces itself

A sender starts a message when it is due, waits for the answer until a deadline
one interval after it was sent, and keeps a schedule: each start moves the next
due time one interval ahead, and a wait without any answer sets it one interval
after the wait has ended.  The file relates the instants of all starts to the
schedule, on any clock that does not run backwards, and fixes them exactly on a
clock that does not pass the instants the sender waits for.
-/

namespace TcpMonitor.Pacer

/-- Where the sender stands: before its first message, until the next message
is due, sending, waiting for the answer, or finished. -/
inductive Phase where
  | unopened
  | idle (due : ℕ)
  | sending (due : ℕ)
  | waiting (due deadline : ℕ)
  | ended

/-- When the next message is due. -/
def Phase.due : Phase → Option ℕ
  | .idle due | .sending due | .waiting due _ => some due
  | .unopened | .ended => none

/-- A sender, the clock, and its history: when the first message was due, the
instants at which messages were started, the deadlines of the waits that have
ended, each with whether it was silent, and the instants at which they ended. -/
structure State where
  phase : Phase
  now : ℕ
  began : Option ℕ
  started : List ℕ
  waits : List (ℕ × Bool)
  closed : List ℕ

/-- What a step can do. -/
inductive Step (interval : ℕ) (state : State) : State → Prop
  | tick {later : ℕ} (hlater : state.now ≤ later) : Step interval state { state with now := later }
  | stay : Step interval state state
  | opened (hphase : state.phase = .unopened) :
      Step interval state { state with phase := .idle state.now, began := some state.now }
  | start {due : ℕ} (hphase : state.phase = .idle due) (hdue : due ≤ state.now) :
      Step interval state { state with
        phase := .sending (due + interval)
        started := state.started ++ [state.now] }
  | sent {due : ℕ} (hphase : state.phase = .sending due) :
      Step interval state { state with phase := .waiting due (state.now + interval) }
  | answered {due deadline : ℕ} (hphase : state.phase = .waiting due deadline) :
      Step interval state { state with
        phase := .idle due
        waits := state.waits ++ [(deadline, false)]
        closed := state.closed ++ [state.now] }
  | silent {due deadline : ℕ} (hphase : state.phase = .waiting due deadline)
      (hdeadline : deadline ≤ state.now) :
      Step interval state { state with
        phase := .idle (state.now + interval)
        waits := state.waits ++ [(deadline, true)]
        closed := state.closed ++ [state.now] }
  | gaveUp {due deadline : ℕ} (hphase : state.phase = .waiting due deadline)
      (hdeadline : deadline ≤ state.now) :
      Step interval state { state with
        phase := .ended
        waits := state.waits ++ [(deadline, true)]
        closed := state.closed ++ [state.now] }
  | stop : Step interval state { state with phase := .ended }

theorem getElem?_concat_eq_some {α : Type*} {list : List α} {last value : α} {n : ℕ} :
    (list ++ [last])[n]? = some value ↔
      list[n]? = some value ∨ n = list.length ∧ last = value := by
  rcases Nat.lt_trichotomy n list.length with hlt | rfl | hgt
  · simp [List.getElem?_append_left hlt, hlt.ne]
  · simp
  · rw [List.getElem?_eq_none (by simpa using Nat.succ_le_of_lt hgt),
      List.getElem?_eq_none hgt.le]
    simp [hgt.ne']

/-! ## On any clock -/

/-- How the histories and the schedule fit together. -/
structure Paced (interval : ℕ) (state : State) : Prop where
  unopened : state.phase = .unopened →
    state.began = none ∧ state.started = [] ∧ state.waits = []
  began : ∀ due, state.phase.due = some due →
    ∃ first, state.began = some first ∧ first + state.started.length * interval ≤ due
  due_le : ∀ due, state.phase.due = some due → due ≤ state.now + interval
  deadline_le : ∀ due deadline, state.phase = .waiting due deadline →
    deadline ≤ state.now + interval
  closed_length : state.closed.length = state.waits.length
  idle_length : ∀ due, state.phase = .idle due → state.started.length = state.waits.length
  busy_length : ∀ due, state.phase.due = some due → state.phase ≠ .idle due →
    state.started.length = state.waits.length + 1
  started_length : state.waits.length ≤ state.started.length ∧
    state.started.length ≤ state.waits.length + 1
  spaced : ∀ first, state.began = some first → ∀ n instant, state.started[n]? = some instant →
    first + n * interval ≤ instant
  rested : ∀ n deadline, state.waits[n]? = some (deadline, true) →
    ∃ wake, state.closed[n]? = some wake ∧ deadline ≤ wake ∧
      (∀ instant, state.started[n + 1]? = some instant → wake + interval ≤ instant) ∧
      ∀ due, state.phase = .idle due → n + 1 = state.started.length → wake + interval ≤ due

variable {interval : ℕ} {state next : State}

theorem Paced.init (now : ℕ) : Paced interval ⟨.unopened, now, none, [], [], []⟩ where
  unopened _ := ⟨rfl, rfl, rfl⟩
  began due hdue := by cases hdue
  due_le due hdue := by cases hdue
  deadline_le due deadline hphase := by cases hphase
  closed_length := rfl
  idle_length due hphase := by cases hphase
  busy_length due hdue := by cases hdue
  started_length := ⟨Nat.zero_le _, Nat.zero_le _⟩
  spaced first hbegan := by cases hbegan
  rested n deadline hget := by cases hget

/-- A sender that stops keeps its history. -/
theorem Paced.stop (hpaced : Paced interval state) :
    Paced interval { state with phase := .ended } where
  unopened hphase := by cases hphase
  began due hdue := by cases hdue
  due_le due hdue := by cases hdue
  deadline_le due deadline hphase := by cases hphase
  closed_length := hpaced.closed_length
  idle_length due hphase := by cases hphase
  busy_length due hdue := by cases hdue
  started_length := hpaced.started_length
  spaced := hpaced.spaced
  rested n deadline hget := by
    obtain ⟨wake, hwake, hlate, hstarted, -⟩ := hpaced.rested n deadline hget
    exact ⟨wake, hwake, hlate, hstarted, fun due hphase => by cases hphase⟩

/-- A message is started. -/
theorem Paced.start (hpaced : Paced interval state) {due : ℕ} (hphase : state.phase = .idle due)
    (hdue : due ≤ state.now) :
    Paced interval { state with
      phase := .sending (due + interval)
      started := state.started ++ [state.now] } := by
  have hlive : state.phase.due = some due := by rw [hphase]; rfl
  obtain ⟨first, hbegan, hahead⟩ := hpaced.began due hlive
  refine ⟨?_, ?_, ?_, ?_, hpaced.closed_length, ?_, ?_, ?_, ?_, ?_⟩
  · intro hunopened
    cases hunopened
  · rintro _ ⟨⟩
    refine ⟨first, hbegan, ?_⟩
    rw [List.length_append, List.length_singleton, Nat.add_mul]
    omega
  · rintro _ ⟨⟩
    exact Nat.add_le_add_right hdue interval
  · intro due deadline hwaiting
    cases hwaiting
  · intro due hidle
    cases hidle
  · rintro _ ⟨⟩ -
    rw [List.length_append, List.length_singleton, hpaced.idle_length due hphase]
  · rw [List.length_append, List.length_singleton, hpaced.idle_length due hphase]
    exact ⟨Nat.le_succ _, le_rfl⟩
  · intro first' hbegan' n instant hget
    rcases getElem?_concat_eq_some.mp hget with hold | ⟨rfl, rfl⟩
    · exact hpaced.spaced first' hbegan' n instant hold
    · obtain rfl : first = first' := Option.some.inj (hbegan.symm.trans hbegan')
      exact hahead.trans hdue
  · intro n deadline hget
    obtain ⟨wake, hwake, hlate, hstarted, hidle⟩ := hpaced.rested n deadline hget
    refine ⟨wake, hwake, hlate, ?_, fun due hphase => by cases hphase⟩
    intro instant hinstant
    rcases getElem?_concat_eq_some.mp hinstant with hold | ⟨hlast, rfl⟩
    · exact hstarted instant hold
    · exact (hidle due hphase hlast).trans hdue

/-- A wait ends with the next message due at `due'`. -/
theorem Paced.endWait (hpaced : Paced interval state) {due due' deadline : ℕ} {quiet : Bool}
    (hphase : state.phase = .waiting due deadline) (hlater : due ≤ due')
    (hdue : due' ≤ state.now + interval)
    (hquiet : quiet = true → deadline ≤ state.now ∧ due' = state.now + interval) :
    Paced interval { state with
      phase := .idle due'
      waits := state.waits ++ [(deadline, quiet)]
      closed := state.closed ++ [state.now] } := by
  have hlive : state.phase.due = some due := by rw [hphase]; rfl
  have hlength := hpaced.busy_length due hlive (by rw [hphase]; simp)
  obtain ⟨first, hbegan, hahead⟩ := hpaced.began due hlive
  refine ⟨?_, ?_, ?_, ?_, ?_, ?_, ?_, ?_, hpaced.spaced, ?_⟩
  · intro hunopened
    cases hunopened
  · rintro _ ⟨⟩
    exact ⟨first, hbegan, hahead.trans hlater⟩
  · rintro _ ⟨⟩
    exact hdue
  · intro due deadline hwaiting
    cases hwaiting
  · simp [hpaced.closed_length]
  · rintro _ ⟨⟩
    simpa using hlength
  · rintro _ ⟨⟩ hbusy
    exact absurd rfl hbusy
  · rw [hlength, List.length_append]
    exact ⟨le_rfl, Nat.le_succ _⟩
  · intro n deadline' hget
    rcases getElem?_concat_eq_some.mp hget with hold | ⟨rfl, hlast⟩
    · obtain ⟨wake, hwake, hlate, hstarted, -⟩ := hpaced.rested n deadline' hold
      refine ⟨wake, getElem?_concat_eq_some.mpr (Or.inl hwake), hlate, hstarted, ?_⟩
      have hlt := (List.getElem?_eq_some_iff.mp hold).1
      intro due hidle hcount
      dsimp only at hcount
      omega
    · obtain ⟨rfl, rfl⟩ := Prod.mk.inj hlast
      obtain ⟨hlate, rfl⟩ := hquiet rfl
      refine ⟨state.now, ?_, hlate, ?_, ?_⟩
      · exact getElem?_concat_eq_some.mpr (Or.inr ⟨hpaced.closed_length.symm, rfl⟩)
      · intro instant hinstant
        have hlt := (List.getElem?_eq_some_iff.mp hinstant).1
        dsimp only at hlt
        omega
      · rintro _ ⟨⟩ -
        exact le_rfl

/-- Every step keeps the histories in agreement with the schedule. -/
theorem Paced.step (hpaced : Paced interval state) (hstep : Step interval state next) :
    Paced interval next := by
  cases hstep with
  | stay => exact hpaced
  | tick hlater =>
      exact { hpaced with
        due_le := fun due hdue =>
          (hpaced.due_le due hdue).trans (Nat.add_le_add_right hlater interval)
        deadline_le := fun due deadline hphase =>
          (hpaced.deadline_le due deadline hphase).trans (Nat.add_le_add_right hlater interval) }
  | opened hphase =>
      obtain ⟨hbegan, hstarted, hwaits⟩ := hpaced.unopened hphase
      refine ⟨?_, ?_, ?_, ?_, hpaced.closed_length, ?_, ?_, hpaced.started_length, ?_, ?_⟩
      · intro hunopened
        cases hunopened
      · rintro _ ⟨⟩
        exact ⟨state.now, rfl, by simp [hstarted]⟩
      · rintro _ ⟨⟩
        exact Nat.le_add_right state.now interval
      · intro due deadline hwaiting
        cases hwaiting
      · intro due hidle
        simp [hstarted, hwaits]
      · rintro _ ⟨⟩ hbusy
        exact absurd rfl hbusy
      · intro first hfirst n instant hget
        simp [hstarted] at hget
      · intro n deadline hget
        simp [hwaits] at hget
  | start hphase hdue => exact hpaced.start hphase hdue
  | @sent due hphase =>
      have hlive : state.phase.due = some due := by rw [hphase]; rfl
      refine ⟨?_, ?_, ?_, ?_, hpaced.closed_length, ?_, ?_, hpaced.started_length,
        hpaced.spaced, ?_⟩
      · intro hunopened
        cases hunopened
      · rintro _ ⟨⟩
        exact hpaced.began due hlive
      · rintro _ ⟨⟩
        exact hpaced.due_le due hlive
      · rintro _ _ ⟨⟩
        exact le_rfl
      · intro due hidle
        cases hidle
      · rintro _ ⟨⟩ -
        exact hpaced.busy_length due hlive (by rw [hphase]; simp)
      · intro n deadline hget
        obtain ⟨wake, hwake, hlate, hstarted, -⟩ := hpaced.rested n deadline hget
        exact ⟨wake, hwake, hlate, hstarted, fun due hidle => by cases hidle⟩
  | @answered due deadline hphase =>
      have hlive : state.phase.due = some due := by rw [hphase]; rfl
      exact hpaced.endWait hphase le_rfl (hpaced.due_le due hlive) (by simp)
  | @silent due deadline hphase hdeadline =>
      have hlive : state.phase.due = some due := by rw [hphase]; rfl
      exact hpaced.endWait hphase (hpaced.due_le due hlive) le_rfl fun _ => ⟨hdeadline, rfl⟩
  | @gaveUp due deadline hphase hdeadline =>
      have hlive : state.phase.due = some due := by rw [hphase]; rfl
      exact (hpaced.endWait hphase (hpaced.due_le due hlive) le_rfl
        fun _ => ⟨hdeadline, rfl⟩).stop
  | stop => exact hpaced.stop

/-- However late messages are caught up, few have been started by any time. -/
theorem Paced.countP_started_le (hpaced : Paced interval state) (hinterval : 0 < interval)
    {first : ℕ} (hbegan : state.began = some first) (elapsed : ℕ) :
    state.started.countP (fun instant => instant ≤ first + elapsed) ≤
      elapsed / interval + 1 := by
  have hlate : (state.started.drop (elapsed / interval + 1)).countP
      (fun instant => decide (instant ≤ first + elapsed)) = 0 := by
    rw [List.countP_eq_zero]
    intro instant hmem
    obtain ⟨n, hget⟩ := List.mem_iff_getElem?.mp hmem
    rw [List.getElem?_drop] at hget
    have hspaced := hpaced.spaced first hbegan _ instant hget
    have hmul : (elapsed / interval + 1) * interval ≤ (elapsed / interval + 1 + n) * interval :=
      Nat.mul_le_mul_right interval (Nat.le_add_right _ n)
    have hdiv := Nat.lt_mul_div_succ elapsed hinterval
    rw [Nat.mul_comm] at hdiv
    rw [decide_eq_true_eq]
    omega
  calc state.started.countP (fun instant => decide (instant ≤ first + elapsed))
      = (state.started.take (elapsed / interval + 1)).countP
          (fun instant => decide (instant ≤ first + elapsed)) := by
        conv_lhs => rw [← List.take_append_drop (elapsed / interval + 1) state.started]
        rw [List.countP_append, hlate, Nat.add_zero]
    _ ≤ (state.started.take (elapsed / interval + 1)).length := List.countP_le_length
    _ ≤ elapsed / interval + 1 := List.length_take_le _ _

/-! ## On a clock that waits for the sender -/

/-- The clock does not move while a message is sent, and does not pass an
instant that the sender waits for. -/
def Punctual (state next : State) : Prop :=
  match state.phase with
  | .idle due => next.now = state.now ∨ next.now ≤ due
  | .sending _ => next.now = state.now
  | .waiting _ deadline => next.now = state.now ∨ next.now ≤ deadline
  | .unopened | .ended => True

/-- From one start to the next. -/
def pause (interval : ℕ) (silent : Bool) : ℕ := if silent then 2 * interval else interval

/-- The schedule is kept to the instant. -/
structure OnBeat (interval : ℕ) (state : State) : Prop where
  gap : ∀ (n instant instant' : ℕ) wait, state.started[n]? = some instant →
    state.started[n + 1]? = some instant' → state.waits[n]? = some wait →
      instant' = instant + pause interval wait.2
  ended : ∀ n instant deadline : ℕ, state.started[n]? = some instant →
    state.waits[n]? = some (deadline, true) → state.closed[n]? = some (instant + interval)
  idle : ∀ due, state.phase = .idle due → state.now ≤ due ∧
    ∀ (n instant : ℕ) wait, n + 1 = state.started.length → state.started[n]? = some instant →
      state.waits[n]? = some wait → due = instant + pause interval wait.2
  sending : ∀ due, state.phase = .sending due →
    ∀ n instant : ℕ, n + 1 = state.started.length → state.started[n]? = some instant →
      state.now = instant ∧ due = instant + interval
  waiting : ∀ due deadline, state.phase = .waiting due deadline → state.now ≤ deadline ∧
    ∀ n instant : ℕ, n + 1 = state.started.length → state.started[n]? = some instant →
      due = instant + interval ∧ deadline = instant + interval

theorem OnBeat.init (now : ℕ) : OnBeat interval ⟨.unopened, now, none, [], [], []⟩ where
  gap n instant instant' wait hget := by cases hget
  ended n instant deadline hget := by cases hget
  idle due hphase := by cases hphase
  sending due hphase := by cases hphase
  waiting due deadline hphase := by cases hphase

/-- A finished sender keeps its history. -/
theorem OnBeat.stop (hbeat : OnBeat interval state) :
    OnBeat interval { state with phase := .ended } where
  gap := hbeat.gap
  ended := hbeat.ended
  idle due hphase := by cases hphase
  sending due hphase := by cases hphase
  waiting due deadline hphase := by cases hphase

theorem OnBeat.tick (hbeat : OnBeat interval state) {later : ℕ}
    (hpunctual : Punctual state { state with now := later }) :
    OnBeat interval { state with now := later } where
  gap := hbeat.gap
  ended := hbeat.ended
  idle due hphase := by
    obtain ⟨hearly, hdue⟩ := hbeat.idle due hphase
    refine ⟨?_, hdue⟩
    have hold : state.phase = .idle due := hphase
    simp only [Punctual, hold] at hpunctual
    dsimp only
    omega
  sending due hphase n instant hlast hget := by
    have hold : state.phase = .sending due := hphase
    simp only [Punctual, hold] at hpunctual
    exact ⟨hpunctual.trans (hbeat.sending due hphase n instant hlast hget).1,
      (hbeat.sending due hphase n instant hlast hget).2⟩
  waiting due deadline hphase := by
    obtain ⟨hearly, hdue⟩ := hbeat.waiting due deadline hphase
    refine ⟨?_, hdue⟩
    have hold : state.phase = .waiting due deadline := hphase
    simp only [Punctual, hold] at hpunctual
    dsimp only
    omega

theorem OnBeat.start (hbeat : OnBeat interval state) (hpaced : Paced interval state)
    {due : ℕ} (hphase : state.phase = .idle due) (hdue : due ≤ state.now) :
    OnBeat interval { state with
      phase := .sending (due + interval)
      started := state.started ++ [state.now] } := by
  obtain ⟨hearly, hnext⟩ := hbeat.idle due hphase
  obtain rfl : due = state.now := le_antisymm hdue hearly
  refine ⟨?_, ?_, ?_, ?_, ?_⟩
  · intro n instant instant' wait hget hget' hwait
    rcases getElem?_concat_eq_some.mp hget' with hold' | ⟨hlast, rfl⟩
    · rcases getElem?_concat_eq_some.mp hget with hold | ⟨rfl, -⟩
      · exact hbeat.gap n instant instant' wait hold hold' hwait
      · have hlt := (List.getElem?_eq_some_iff.mp hold').1
        omega
    · rcases getElem?_concat_eq_some.mp hget with hold | ⟨rfl, -⟩
      · exact hnext n instant wait hlast hold hwait
      · omega
  · intro n instant deadline hget hwait
    rcases getElem?_concat_eq_some.mp hget with hold | ⟨rfl, rfl⟩
    · exact hbeat.ended n instant deadline hold hwait
    · have hlt := (List.getElem?_eq_some_iff.mp hwait).1
      have hlength := hpaced.idle_length _ hphase
      dsimp only at hlt
      omega
  · intro due hidle
    cases hidle
  · rintro _ ⟨⟩ n instant hlast hget
    rcases getElem?_concat_eq_some.mp hget with hold | ⟨-, rfl⟩
    · have hlt := (List.getElem?_eq_some_iff.mp hold).1
      simp only [List.length_append, List.length_singleton] at hlast
      omega
    · exact ⟨rfl, rfl⟩
  · intro due deadline hwaiting
    cases hwaiting

/-- A wait that ends before its deadline passes. -/
theorem OnBeat.endWait (hbeat : OnBeat interval state) (hpaced : Paced interval state)
    {due deadline : ℕ} (hphase : state.phase = .waiting due deadline) {quiet : Bool} {due' : ℕ}
    (hdue : due' = if quiet then state.now + interval else due)
    (hquiet : quiet = true → deadline ≤ state.now) :
    OnBeat interval { state with
      phase := .idle due'
      waits := state.waits ++ [(deadline, quiet)]
      closed := state.closed ++ [state.now] } := by
  have hlive : state.phase.due = some due := by rw [hphase]; rfl
  have hlength := hpaced.busy_length due hlive (by rw [hphase]; simp)
  obtain ⟨hearly, hnext⟩ := hbeat.waiting due deadline hphase
  have hnow : quiet = true → state.now = deadline := fun hq => le_antisymm hearly (hquiet hq)
  refine ⟨?_, ?_, ?_, ?_, ?_⟩
  · intro n instant instant' wait hget hget' hwait
    rcases getElem?_concat_eq_some.mp hwait with hold | ⟨rfl, rfl⟩
    · exact hbeat.gap n instant instant' wait hget hget' hold
    · have hlt := (List.getElem?_eq_some_iff.mp hget').1
      dsimp only at hlt
      omega
  · intro n instant deadline' hget hwait
    rcases getElem?_concat_eq_some.mp hwait with hold | ⟨rfl, hlast⟩
    · exact getElem?_concat_eq_some.mpr (Or.inl (hbeat.ended n instant deadline' hget hold))
    · obtain ⟨rfl, rfl⟩ := Prod.mk.inj hlast
      refine getElem?_concat_eq_some.mpr (Or.inr ⟨hpaced.closed_length.symm, ?_⟩)
      rw [hnow rfl]
      exact (hnext _ instant hlength.symm hget).2
  · rintro _ ⟨⟩
    constructor
    · obtain ⟨last, hlast⟩ : ∃ last, state.started[state.waits.length]? = some last :=
        ⟨_, List.getElem?_eq_getElem (by omega)⟩
      obtain ⟨hdue', hdeadline⟩ := hnext _ last hlength.symm hlast
      rw [hdue]
      split
      · exact Nat.le_add_right state.now interval
      · dsimp only
        omega
    · intro n instant wait hlast hget hwait
      rcases getElem?_concat_eq_some.mp hwait with hold | ⟨rfl, rfl⟩
      · have hlt := (List.getElem?_eq_some_iff.mp hold).1
        dsimp only at hlast
        omega
      · obtain ⟨hdue', hdeadline⟩ := hnext _ instant hlast hget
        cases quiet with
        | true =>
            rw [hdue, if_pos rfl, hnow rfl, hdeadline, pause, if_pos rfl, Nat.two_mul,
              Nat.add_assoc]
        | false =>
            rw [hdue]
            exact hdue'
  · intro due hsending
    cases hsending
  · intro due deadline hwaiting
    cases hwaiting

/-- On a clock that waits for the sender, every step keeps the beat. -/
theorem OnBeat.step (hbeat : OnBeat interval state) (hpaced : Paced interval state)
    (hstep : Step interval state next) (hpunctual : Punctual state next) :
    OnBeat interval next := by
  cases hstep with
  | stay => exact hbeat
  | tick hlater => exact hbeat.tick hpunctual
  | opened hphase =>
      obtain ⟨-, hstarted, -⟩ := hpaced.unopened hphase
      refine ⟨hbeat.gap, hbeat.ended, ?_, ?_, ?_⟩
      · rintro _ ⟨⟩
        refine ⟨le_rfl, ?_⟩
        intro n instant wait hlast hget
        simp [hstarted] at hget
      · intro due hsending
        cases hsending
      · intro due deadline hwaiting
        cases hwaiting
  | start hphase hdue => exact hbeat.start hpaced hphase hdue
  | @sent due hphase =>
      refine ⟨hbeat.gap, hbeat.ended, ?_, ?_, ?_⟩
      · intro due hidle
        cases hidle
      · intro due hsending
        cases hsending
      · rintro _ _ ⟨⟩
        refine ⟨Nat.le_add_right state.now interval, ?_⟩
        intro n instant hlast hget
        obtain ⟨hnow, hdue⟩ := hbeat.sending due hphase n instant hlast hget
        exact ⟨hdue, congrArg (· + interval) hnow⟩
  | @answered due deadline hphase =>
      have hdue : due = if false then state.now + interval else due := rfl
      exact hbeat.endWait hpaced hphase hdue (by simp)
  | @silent due deadline hphase hdeadline =>
      have hdue : state.now + interval = if true then state.now + interval else due := rfl
      exact hbeat.endWait hpaced hphase hdue fun _ => hdeadline
  | @gaveUp due deadline hphase hdeadline =>
      have hdue : state.now + interval = if true then state.now + interval else due := rfl
      exact (hbeat.endWait hpaced hphase hdue fun _ => hdeadline).stop
  | stop => exact hbeat.stop

/-- A sender that is not finished has started its last message at most two
intervals ago. -/
theorem OnBeat.now_le (hbeat : OnBeat interval state) (hpaced : Paced interval state) {due : ℕ}
    (hdue : state.phase.due = some due) {n instant : ℕ} (hlast : n + 1 = state.started.length)
    (hget : state.started[n]? = some instant) : state.now ≤ instant + 2 * interval := by
  cases hphase : state.phase with
  | unopened | ended =>
      rw [hphase] at hdue
      cases hdue
  | idle due =>
      obtain ⟨hearly, hnext⟩ := hbeat.idle due hphase
      have hlength := hpaced.idle_length due hphase
      have hwait := hnext n instant _ hlast hget (List.getElem?_eq_getElem (by omega))
      rw [pause] at hwait
      split at hwait <;> omega
  | sending due =>
      have hnow := (hbeat.sending due hphase n instant hlast hget).1
      omega
  | waiting due deadline =>
      obtain ⟨hearly, hnext⟩ := hbeat.waiting due deadline hphase
      have hdeadline := (hnext n instant hlast hget).2
      omega

/-! ## Once the answers have stopped -/

/-- Every wait from `n` on has been silent. -/
def SilentFrom (n : ℕ) (state : State) : Prop :=
  ∀ (k : ℕ) wait, n ≤ k → state.waits[k]? = some wait → wait.2 = true

/-- Then the messages from `n` on are two intervals apart. -/
theorem OnBeat.started_after_silence (hbeat : OnBeat interval state)
    (hpaced : Paced interval state) {n last : ℕ} (hlast : state.started[n]? = some last)
    (hsilent : SilentFrom n state) {missed instant : ℕ}
    (hget : state.started[n + missed]? = some instant) :
    instant = last + missed * (2 * interval) := by
  induction missed generalizing instant with
  | zero =>
      obtain rfl : last = instant := Option.some.inj (hlast.symm.trans hget)
      simp
  | succ missed ih =>
      have hlt := (List.getElem?_eq_some_iff.mp hget).1
      have hlength := hpaced.started_length.2
      have hbefore : n + missed < state.started.length := by omega
      have hwaited : n + missed < state.waits.length := by omega
      have hwait := List.getElem?_eq_getElem hwaited
      have hgap := hbeat.gap (n + missed) _ instant _ (List.getElem?_eq_getElem hbefore) hget hwait
      have hquiet := hsilent (n + missed) _ (Nat.le_add_right n missed) hwait
      rw [hgap, pause, if_pos hquiet, ih (List.getElem?_eq_getElem hbefore), Nat.add_assoc,
        ← Nat.succ_mul]

/-- A sender that has missed some answers in a row is still within the last
interval. -/
theorem OnBeat.now_le_after_silence (hbeat : OnBeat interval state)
    (hpaced : Paced interval state) {n last : ℕ} (hlast : state.started[n]? = some last)
    (hsilent : SilentFrom n state) {due : ℕ} (hdue : state.phase.due = some due) {missed : ℕ}
    (hmissed : state.waits.length = n + missed) :
    state.now ≤ last + missed * (2 * interval) + interval := by
  have hlt := (List.getElem?_eq_some_iff.mp hlast).1
  cases hphase : state.phase with
  | unopened | ended =>
      rw [hphase] at hdue
      cases hdue
  | idle due =>
      obtain ⟨hearly, hnext⟩ := hbeat.idle due hphase
      have hlength := hpaced.idle_length due hphase
      obtain ⟨before, rfl⟩ : ∃ before, missed = before + 1 := ⟨missed - 1, by omega⟩
      have hstarted := List.getElem?_eq_getElem (l := state.started) (i := n + before) (by omega)
      have hwait := List.getElem?_eq_getElem (l := state.waits) (i := n + before) (by omega)
      have hinstant := hbeat.started_after_silence hpaced hlast hsilent hstarted
      have hquiet := hsilent (n + before) _ (Nat.le_add_right n before) hwait
      have hwaited := hnext (n + before) _ _ (by omega) hstarted hwait
      rw [hinstant, pause, if_pos hquiet] at hwaited
      have hmul : (before + 1) * (2 * interval) = before * (2 * interval) + 2 * interval :=
        Nat.succ_mul before (2 * interval)
      omega
  | sending due =>
      have hlength := hpaced.busy_length due (by rw [hphase]; rfl) (by rw [hphase]; simp)
      have hstarted := List.getElem?_eq_getElem (l := state.started) (i := n + missed) (by omega)
      have hinstant := hbeat.started_after_silence hpaced hlast hsilent hstarted
      have hnow := (hbeat.sending due hphase (n + missed) _ (by omega) hstarted).1
      omega
  | waiting due deadline =>
      have hlength := hpaced.busy_length due (by rw [hphase]; rfl) (by rw [hphase]; simp)
      have hstarted := List.getElem?_eq_getElem (l := state.started) (i := n + missed) (by omega)
      have hinstant := hbeat.started_after_silence hpaced hlast hsilent hstarted
      obtain ⟨hearly, hnext⟩ := hbeat.waiting due deadline hphase
      have hdeadline := (hnext (n + missed) _ (by omega) hstarted).2
      omega

/-- The last wait has ended one interval after its message. -/
theorem OnBeat.closed_after_silence (hbeat : OnBeat interval state)
    (hpaced : Paced interval state) {n last : ℕ} (hlast : state.started[n]? = some last)
    (hsilent : SilentFrom n state) {missed : ℕ}
    (hmissed : state.waits.length = n + missed + 1) :
    state.closed.getLast? = some (last + missed * (2 * interval) + interval) := by
  have hlength := hpaced.started_length.1
  have hget : n + missed < state.started.length := by omega
  have hwait := List.getElem?_eq_getElem (l := state.waits) (i := n + missed) (by omega)
  have hinstant := hbeat.started_after_silence hpaced hlast hsilent (List.getElem?_eq_getElem hget)
  have hquiet := hsilent (n + missed) _ (Nat.le_add_right n missed) hwait
  have hclosed := hbeat.ended (n + missed) _ _ (List.getElem?_eq_getElem hget)
    (by rw [hwait]; exact congrArg some (Prod.ext rfl hquiet))
  rw [List.getLast?_eq_getElem?, hpaced.closed_length, hmissed, Nat.add_sub_cancel, hclosed,
    hinstant]

end TcpMonitor.Pacer
