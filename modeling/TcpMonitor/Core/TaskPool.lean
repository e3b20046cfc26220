import Mathlib.Algebra.BigOperators.Group.List.Basic
import Mathlib.Algebra.GroupWithZero.Nat
import TcpMonitor.Core.TransitionSystem

/-!
# Concurrent tasks that update shared state atomically

Any number of tasks run the same program against one shared state.  A task is
a control point together with the atomic updates its last piece of straight-line
code still has to make, in program order, and, as a history variable, the
updates it has made so far.  Updates of different tasks interleave freely; a
task acts again only when it has no update left to make.  The world around the
tasks may change the shared state and start new tasks.

Two rules are proved once: an invariant of every single task, and the
conservation law that a counter in the shared state is the sum of what the
histories of all tasks have added to it.
-/

namespace TcpMonitor.TaskPool

open TcpMonitor.TransitionSystem

/-- One task: where it is, the updates it is about to make, and those it has
made. -/
structure Task (Control Update : Type*) where
  control : Control
  pending : List Update
  made : List Update

/-- A task that has just been spawned. -/
def Task.start {Control Update : Type*} (control : Control) : Task Control Update :=
  ⟨control, [], []⟩

/-- The shared state and every task ever spawned, in spawn order. -/
structure Pool (Shared Control Update : Type*) where
  shared : Shared
  tasks : List (Task Control Update)

/-- What the tasks run.  `act` is a task's step between two awaits: it may use
the shared state once, and returns the updates to make before it acts again.
`outside` is everything else that touches the shared state. -/
structure Program (Shared Control Update Input Event : Type*) where
  apply : Update → Shared → Shared
  act : Shared → ℕ → Control → Input → Option (Shared × Control × List Update)
  outside : Pool Shared Control Update → Event → Option (Shared × List Control)

/-- A scheduling choice. -/
inductive Move (Input Event : Type*) where
  | flush (index : ℕ)
  | act (index : ℕ) (input : Input)
  | outside (event : Event)

variable {Shared Control Update Input Event : Type*}

/-- One step of the whole system. -/
def step (program : Program Shared Control Update Input Event)
    (pool : Pool Shared Control Update) :
    Move Input Event → Option (Pool Shared Control Update)
  | .flush index =>
      match pool.tasks[index]? with
      | some ⟨control, update :: rest, made⟩ =>
          some ⟨program.apply update pool.shared,
            pool.tasks.set index ⟨control, rest, made ++ [update]⟩⟩
      | _ => none
  | .act index input =>
      match pool.tasks[index]? with
      | some ⟨control, [], made⟩ =>
          (program.act pool.shared index control input).map fun result =>
            ⟨result.1, pool.tasks.set index ⟨result.2.1, result.2.2, made⟩⟩
      | _ => none
  | .outside event =>
      (program.outside pool event).map fun result =>
        ⟨result.1, pool.tasks ++ result.2.map Task.start⟩

variable {program : Program Shared Control Update Input Event}
variable {pool next : Pool Shared Control Update}

theorem step_flush_eq_some {index : ℕ} :
    step program pool (.flush index) = some next ↔
      ∃ control update rest made,
        pool.tasks[index]? = some ⟨control, update :: rest, made⟩ ∧
        next = ⟨program.apply update pool.shared,
          pool.tasks.set index ⟨control, rest, made ++ [update]⟩⟩ := by
  constructor
  · intro hstep
    simp only [step] at hstep
    split at hstep
    · next control update rest made hget =>
        exact ⟨control, update, rest, made, hget, (Option.some.inj hstep).symm⟩
    · cases hstep
  · rintro ⟨control, update, rest, made, hget, rfl⟩
    simp [step, hget]

theorem step_act_eq_some {index : ℕ} {input : Input} :
    step program pool (.act index input) = some next ↔
      ∃ control made shared control' updates,
        pool.tasks[index]? = some ⟨control, [], made⟩ ∧
        program.act pool.shared index control input = some (shared, control', updates) ∧
        next = ⟨shared, pool.tasks.set index ⟨control', updates, made⟩⟩ := by
  constructor
  · intro hstep
    simp only [step] at hstep
    split at hstep
    · next control made hget =>
        obtain ⟨⟨shared, control', updates⟩, hact, hnext⟩ := Option.map_eq_some_iff.mp hstep
        exact ⟨control, made, shared, control', updates, hget, hact, hnext.symm⟩
    · cases hstep
  · rintro ⟨control, made, shared, control', updates, hget, hact, rfl⟩
    simp [step, hget, hact]

theorem step_outside_eq_some {event : Event} :
    step program pool (.outside event) = some next ↔
      ∃ shared spawned,
        program.outside pool event = some (shared, spawned) ∧
        next = ⟨shared, pool.tasks ++ spawned.map Task.start⟩ := by
  constructor
  · intro hstep
    obtain ⟨⟨shared, spawned⟩, houtside, hnext⟩ := Option.map_eq_some_iff.mp hstep
    exact ⟨shared, spawned, houtside, hnext.symm⟩
  · rintro ⟨shared, spawned, houtside, rfl⟩
    simp [step, houtside]

/-! ## Invariants of every single task -/

/-- A property of single tasks that may mention the shared state.  It must
survive what the others do to the shared state (`stable`), hold of a task when
it is spawned, and survive the task's own two kinds of step. -/
structure TaskInvariant (program : Program Shared Control Update Input Event)
    (Inv : Shared → Task Control Update → Prop) : Prop where
  stable : ∀ {pool next : Pool Shared Control Update} {move : Move Input Event},
    step program pool move = some next →
      ∀ task, Inv pool.shared task → Inv next.shared task
  spawn : ∀ {pool : Pool Shared Control Update} {event shared spawned},
    program.outside pool event = some (shared, spawned) →
      ∀ control ∈ spawned, Inv shared (Task.start control)
  flush : ∀ {shared control update rest made},
    Inv shared ⟨control, update :: rest, made⟩ →
      Inv (program.apply update shared) ⟨control, rest, made ++ [update]⟩
  act : ∀ {shared index control input made shared' control' updates},
    Inv shared ⟨control, [], made⟩ →
      program.act shared index control input = some (shared', control', updates) →
        Inv shared' ⟨control', updates, made⟩

theorem TaskInvariant.step {Inv : Shared → Task Control Update → Prop}
    (hinv : TaskInvariant program Inv) {move : Move Input Event}
    (hall : ∀ task ∈ pool.tasks, Inv pool.shared task)
    (hstep : TaskPool.step program pool move = some next) :
    ∀ task ∈ next.tasks, Inv next.shared task := by
  intro task hmem
  cases move with
  | flush index =>
      obtain ⟨control, update, rest, made, hget, rfl⟩ := step_flush_eq_some.mp hstep
      rcases List.mem_or_eq_of_mem_set hmem with hold | rfl
      · exact hinv.stable hstep task (hall task hold)
      · exact hinv.flush (hall _ (List.mem_of_getElem? hget))
  | act index input =>
      obtain ⟨control, made, shared, control', updates, hget, hact, rfl⟩ :=
        step_act_eq_some.mp hstep
      rcases List.mem_or_eq_of_mem_set hmem with hold | rfl
      · exact hinv.stable hstep task (hall task hold)
      · exact hinv.act (hall _ (List.mem_of_getElem? hget)) hact
  | outside event =>
      obtain ⟨shared, spawned, houtside, rfl⟩ := step_outside_eq_some.mp hstep
      rcases List.mem_append.mp hmem with hold | hnew
      · exact hinv.stable hstep task (hall task hold)
      · obtain ⟨control, hcontrol, rfl⟩ := List.mem_map.mp hnew
        exact hinv.spawn houtside control hcontrol

/-- Every task of every reachable pool satisfies a task invariant. -/
theorem TaskInvariant.reachable {Inv : Shared → Task Control Update → Prop}
    (hinv : TaskInvariant program Inv) {first : Pool Shared Control Update}
    (hreach : Reachable (TaskPool.step program) first pool)
    (hfirst : ∀ task ∈ first.tasks, Inv first.shared task) :
    ∀ task ∈ pool.tasks, Inv pool.shared task :=
  hreach.invariant (fun pool => ∀ task ∈ pool.tasks, Inv pool.shared task) hfirst
    fun _ _ _ hall hstep => hinv.step hall hstep

/-! ## What tasks are made of -/

/-- A property of control points and their positions that acting keeps and that
spawned tasks have. -/
theorem forall_control_step {P : ℕ → Control → Prop} {move : Move Input Event}
    (hact : ∀ {shared index control input shared' control' updates}, move = .act index input →
      program.act shared index control input = some (shared', control', updates) →
        P index control → P index control')
    (hspawn : ∀ {event shared spawned}, move = .outside event →
      program.outside pool event = some (shared, spawned) →
        ∀ control ∈ spawned, ∀ index, pool.tasks.length ≤ index → P index control)
    (hstep : TaskPool.step program pool move = some next)
    (hall : ∀ (index : ℕ) task, pool.tasks[index]? = some task → P index task.control) :
    ∀ (index : ℕ) task, next.tasks[index]? = some task → P index task.control := by
  intro i task hget
  cases move with
  | flush index =>
      obtain ⟨control, update, rest, made, hold, rfl⟩ := step_flush_eq_some.mp hstep
      rcases eq_or_ne index i with rfl | hne
      · rw [List.getElem?_set_self (List.getElem?_eq_some_iff.mp hold).1] at hget
        cases hget
        exact hall index ⟨control, update :: rest, made⟩ hold
      · rw [List.getElem?_set_ne hne] at hget
        exact hall i task hget
  | act index input =>
      obtain ⟨control, made, shared, control', updates, hold, hstepped, rfl⟩ :=
        step_act_eq_some.mp hstep
      rcases eq_or_ne index i with rfl | hne
      · rw [List.getElem?_set_self (List.getElem?_eq_some_iff.mp hold).1] at hget
        cases hget
        exact hact rfl hstepped (hall index ⟨control, [], made⟩ hold)
      · rw [List.getElem?_set_ne hne] at hget
        exact hall i task hget
  | outside event =>
      obtain ⟨shared, spawned, houtside, rfl⟩ := step_outside_eq_some.mp hstep
      rcases Nat.lt_or_ge i pool.tasks.length with hlt | hge
      · rw [List.getElem?_append_left hlt] at hget
        exact hall i task hget
      · rw [List.getElem?_append_right hge] at hget
        obtain ⟨control, hcontrol, rfl⟩ := List.mem_map.mp (List.mem_of_getElem? hget)
        exact hspawn rfl houtside control hcontrol i hge

/-- A task stays at its position, and what acting keeps of its control point is
kept. -/
theorem exists_task_step {Value : Type*} (value : Control → Value)
    (hact : ∀ {shared index control input shared' control' updates},
      program.act shared index control input = some (shared', control', updates) →
        value control' = value control)
    {move : Move Input Event} (hstep : TaskPool.step program pool move = some next) {i : ℕ}
    {task : Task Control Update} (hget : pool.tasks[i]? = some task) :
    ∃ task', next.tasks[i]? = some task' ∧ value task'.control = value task.control := by
  have hlt := (List.getElem?_eq_some_iff.mp hget).1
  cases move with
  | flush index =>
      obtain ⟨control, update, rest, made, hold, rfl⟩ := step_flush_eq_some.mp hstep
      rcases eq_or_ne index i with rfl | hne
      · rw [hget] at hold
        cases hold
        exact ⟨_, List.getElem?_set_self hlt, rfl⟩
      · exact ⟨task, by rw [List.getElem?_set_ne hne, hget], rfl⟩
  | act index input =>
      obtain ⟨control, made, shared, control', updates, hold, hstepped, rfl⟩ :=
        step_act_eq_some.mp hstep
      rcases eq_or_ne index i with rfl | hne
      · rw [hget] at hold
        cases hold
        exact ⟨_, List.getElem?_set_self hlt, hact hstepped⟩
      · exact ⟨task, by rw [List.getElem?_set_ne hne, hget], rfl⟩
  | outside event =>
      obtain ⟨shared, spawned, houtside, rfl⟩ := step_outside_eq_some.mp hstep
      exact ⟨task, by rw [List.getElem?_append_left hlt, hget], rfl⟩

/-- What a step does to the task at one position: it makes the task's next
update, it is a step of the task's code, or it leaves the task alone. -/
theorem task_step_cases {move : Move Input Event}
    (hstep : TaskPool.step program pool move = some next) {i : ℕ} {task : Task Control Update}
    (hget : pool.tasks[i]? = some task) :
    (∃ update rest, move = .flush i ∧ task.pending = update :: rest ∧
        next.tasks[i]? = some ⟨task.control, rest, task.made ++ [update]⟩) ∨
      (∃ input shared control updates, move = .act i input ∧ task.pending = [] ∧
        program.act pool.shared i task.control input = some (shared, control, updates) ∧
        next.tasks[i]? = some ⟨control, updates, task.made⟩) ∨
      (move ≠ .flush i ∧ (∀ input, move ≠ .act i input) ∧ next.tasks[i]? = some task) := by
  have hlt := (List.getElem?_eq_some_iff.mp hget).1
  cases move with
  | flush index =>
      obtain ⟨control, update, rest, made, hold, rfl⟩ := step_flush_eq_some.mp hstep
      rcases eq_or_ne index i with rfl | hne
      · rw [hget] at hold
        cases hold
        exact Or.inl ⟨update, rest, rfl, rfl, List.getElem?_set_self hlt⟩
      · exact Or.inr (Or.inr ⟨by simp [hne], by simp, by rw [List.getElem?_set_ne hne, hget]⟩)
  | act index input =>
      obtain ⟨control, made, shared, control', updates, hold, hact, rfl⟩ :=
        step_act_eq_some.mp hstep
      rcases eq_or_ne index i with rfl | hne
      · rw [hget] at hold
        cases hold
        exact Or.inr (Or.inl ⟨input, shared, control', updates, rfl, rfl, hact,
          List.getElem?_set_self hlt⟩)
      · exact Or.inr (Or.inr ⟨by simp, by simp [hne], by rw [List.getElem?_set_ne hne, hget]⟩)
  | outside event =>
      obtain ⟨shared, spawned, houtside, rfl⟩ := step_outside_eq_some.mp hstep
      exact Or.inr (Or.inr ⟨by simp, by simp, by rw [List.getElem?_append_left hlt, hget]⟩)

/-- A property of tasks and their positions that both kinds of step keep and
that spawned tasks have. -/
theorem forall_task_step {P : ℕ → Task Control Update → Prop} {move : Move Input Event}
    (hflush : ∀ {index control update rest made}, P index ⟨control, update :: rest, made⟩ →
      P index ⟨control, rest, made ++ [update]⟩)
    (hact : ∀ {shared index control input made shared' control' updates},
      move = .act index input →
        program.act shared index control input = some (shared', control', updates) →
          P index ⟨control, [], made⟩ → P index ⟨control', updates, made⟩)
    (hspawn : ∀ {event shared spawned}, program.outside pool event = some (shared, spawned) →
      ∀ control ∈ spawned, ∀ index, pool.tasks.length ≤ index → P index (Task.start control))
    (hstep : TaskPool.step program pool move = some next)
    (hall : ∀ (index : ℕ) task, pool.tasks[index]? = some task → P index task) :
    ∀ (index : ℕ) task, next.tasks[index]? = some task → P index task := by
  intro i task hget
  rcases Nat.lt_or_ge i pool.tasks.length with hlt | hge
  · obtain ⟨⟨control, pending, made⟩, hold⟩ : ∃ task, pool.tasks[i]? = some task :=
      ⟨_, List.getElem?_eq_getElem hlt⟩
    have hbefore := hall i _ hold
    rcases task_step_cases hstep hold with ⟨update, rest, -, hpending, hnext⟩ |
      ⟨input, shared, control', updates, hmove, hpending, hstepped, hnext⟩ | ⟨-, -, hnext⟩
    · cases hpending
      cases hget.symm.trans hnext
      exact hflush hbefore
    · cases hpending
      cases hget.symm.trans hnext
      exact hact hmove hstepped hbefore
    · cases hget.symm.trans hnext
      exact hbefore
  · cases move with
    | flush index =>
        obtain ⟨control, update, rest, made, -, rfl⟩ := step_flush_eq_some.mp hstep
        rw [List.getElem?_eq_none (by rwa [List.length_set])] at hget
        cases hget
    | act index input =>
        obtain ⟨control, made, shared, control', updates, -, -, rfl⟩ :=
          step_act_eq_some.mp hstep
        rw [List.getElem?_eq_none (by rwa [List.length_set])] at hget
        cases hget
    | outside event =>
        obtain ⟨shared, spawned, houtside, rfl⟩ := step_outside_eq_some.mp hstep
        rw [List.getElem?_append_right hge] at hget
        obtain ⟨control, hcontrol, rfl⟩ := List.mem_map.mp (List.mem_of_getElem? hget)
        exact hspawn houtside control hcontrol i hge

/-! ## Conservation of counters -/

/-- What the tasks' histories add up to, each update counted with its weight. -/
def madeTotal (weight : Update → ℕ) (tasks : List (Task Control Update)) : ℕ :=
  (tasks.map fun task => (task.made.map weight).sum).sum

theorem sum_map_set {A : Type*} (value : A → ℕ) {items : List A} {index : ℕ} {old : A}
    (hget : items[index]? = some old) (new : A) :
    ((items.set index new).map value).sum + value old =
      (items.map value).sum + value new := by
  induction items generalizing index with
  | nil => simp at hget
  | cons head tail ih =>
      cases index with
      | zero =>
          obtain rfl : head = old := by simpa using hget
          simp only [List.set_cons_zero, List.map_cons, List.sum_cons]
          omega
      | succ index =>
          have hrest := ih (by simpa using hget)
          simp only [List.set_cons_succ, List.map_cons, List.sum_cons]
          omega

/-- A sum over tasks splits along a predicate when each task's share does. -/
theorem sum_map_eq_countP_add {A : Type*} {left right : A → ℕ} {selected : A → Bool}
    {items : List A}
    (hitem : ∀ item ∈ items,
      left item = (if selected item then 1 else 0) + right item) :
    (items.map left).sum = items.countP selected + (items.map right).sum := by
  induction items with
  | nil => rfl
  | cons head tail ih =>
      have hhead := hitem head List.mem_cons_self
      have htail := ih fun item hmem => hitem item (List.mem_cons_of_mem head hmem)
      rw [List.map_cons, List.sum_cons, List.map_cons, List.sum_cons, List.countP_cons]
      omega

/-- A sum over items grows by at most what each position is allowed. -/
theorem sum_map_le_add_mapIdx {A : Type*} {value : A → ℕ} {allowance : ℕ → A → ℕ}
    {old new : List A}
    (hitem : ∀ (i : ℕ) item, new[i]? = some item →
      value item ≤ (old[i]?.map value).getD 0 + allowance i item) :
    (new.map value).sum ≤ (old.map value).sum + (new.mapIdx allowance).sum := by
  induction new generalizing old allowance with
  | nil => exact Nat.zero_le _
  | cons head tail ih =>
      have hhead := hitem 0 head rfl
      rw [List.mapIdx_cons, List.map_cons, List.sum_cons, List.sum_cons]
      cases old with
      | nil =>
          have htail := @ih (fun i => allowance (i + 1)) []
            fun i item hget => hitem (i + 1) item hget
          simp only [List.getElem?_nil, Option.map_none, Option.getD_none, List.map_nil,
            List.sum_nil] at hhead htail ⊢
          omega
      | cons old olds =>
          have htail := @ih (fun i => allowance (i + 1)) olds
            fun i item hget => hitem (i + 1) item hget
          simp only [List.getElem?_cons_zero, Option.map_some, Option.getD_some, List.map_cons,
            List.sum_cons] at hhead ⊢
          omega

/-- When at most one position is selected, the count only says whether there is
one. -/
theorem countP_eq_ite {A : Type*} {selected : A → Bool} {items : List A}
    (hunique : ∀ (index other : ℕ) item item', items[index]? = some item →
      items[other]? = some item' → selected item = true → selected item' = true →
        index = other) :
    items.countP selected = if ∃ item ∈ items, selected item = true then 1 else 0 := by
  induction items with
  | nil => simp
  | cons head tail ih =>
      have htail := ih fun index other item item' hget hget' hitem hitem' =>
        Nat.succ.inj (hunique (index + 1) (other + 1) item item' (by simpa using hget)
          (by simpa using hget') hitem hitem')
      cases hhead : selected head with
      | false => simpa [hhead] using htail
      | true =>
          have hnone : ¬ ∃ item ∈ tail, selected item = true := by
            rintro ⟨item, hmem, hitem⟩
            obtain ⟨index, hget⟩ := List.mem_iff_getElem?.mp hmem
            exact absurd (hunique 0 (index + 1) head item rfl (by simpa using hget) hhead hitem)
              (by omega)
          rw [if_neg hnone] at htail
          simp [hhead, htail]

/-- A counter that each update raises by its weight and nothing else touches. -/
structure Counter (program : Program Shared Control Update Input Event)
    (value : Shared → ℕ) (weight : Update → ℕ) : Prop where
  apply : ∀ update shared, value (program.apply update shared) = value shared + weight update
  act : ∀ {shared index control input shared' control' updates},
    program.act shared index control input = some (shared', control', updates) →
      value shared' = value shared
  outside : ∀ {pool : Pool Shared Control Update} {event shared spawned},
    program.outside pool event = some (shared, spawned) →
      value shared = value pool.shared

theorem Counter.step {value : Shared → ℕ} {weight : Update → ℕ}
    (hcounter : Counter program value weight) {move : Move Input Event}
    (hstep : TaskPool.step program pool move = some next) :
    value next.shared + madeTotal weight pool.tasks =
      value pool.shared + madeTotal weight next.tasks := by
  cases move with
  | flush index =>
      obtain ⟨control, update, rest, made, hget, rfl⟩ := step_flush_eq_some.mp hstep
      have hset := sum_map_set (fun task : Task Control Update => (task.made.map weight).sum)
        hget ⟨control, rest, made ++ [update]⟩
      simp only [List.map_append, List.map_cons, List.map_nil, List.sum_append,
        List.sum_cons, List.sum_nil] at hset
      simp only [madeTotal, hcounter.apply]
      omega
  | act index input =>
      obtain ⟨control, made, shared, control', updates, hget, hact, rfl⟩ :=
        step_act_eq_some.mp hstep
      have hset := sum_map_set (fun task : Task Control Update => (task.made.map weight).sum)
        hget ⟨control', updates, made⟩
      dsimp only at hset
      simp only [madeTotal, hcounter.act hact]
      omega
  | outside event =>
      obtain ⟨shared, spawned, houtside, rfl⟩ := step_outside_eq_some.mp hstep
      have hspawned : madeTotal weight
          (spawned.map (Task.start : Control → Task Control Update)) = 0 := by
        simp [madeTotal, Task.start, Function.comp_def]
      have hsplit : madeTotal weight (pool.tasks ++ spawned.map Task.start) =
          madeTotal weight pool.tasks + 0 := by
        rw [← hspawned]
        simp [madeTotal]
      rw [hcounter.outside houtside, hsplit]
      omega

/-- In every state reachable from a pool without tasks, a counter is its
initial value plus everything the tasks' histories have added to it. -/
theorem Counter.reachable {value : Shared → ℕ} {weight : Update → ℕ}
    (hcounter : Counter program value weight) {shared : Shared}
    (hreach : Reachable (TaskPool.step program) ⟨shared, []⟩ pool) :
    value pool.shared = value shared + madeTotal weight pool.tasks := by
  refine hreach.invariant
    (fun pool => value pool.shared = value shared + madeTotal weight pool.tasks) ?_ ?_
  · simp [madeTotal]
  · intro state move next hstate hstep
    have hnext := hcounter.step hstep
    omega

end TcpMonitor.TaskPool
