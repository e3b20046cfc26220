import TcpMonitor.Core.TaskPool

/-!
# A register that the tasks write blindly

Each task of a pool overwrites one shared register without reading it.  The
register then holds the last value that any task wrote, which need not be what
another task still relies on.  As long as the writers follow each other, it is
what the latest of them wrote last.  When every write is `on` or `off`, the
register says whether some task's own last write was `on`, exactly as long as no
task writes `off` while another task's last write is `on`.
-/

namespace TcpMonitor.SharedRegister

open TcpMonitor.TransitionSystem
open TcpMonitor.TaskPool

variable {Shared Control Update Input Event Value : Type*}

/-- The value that a list of updates leaves in the register, if they write it. -/
def lastWrite (write : Update → Option Value) (updates : List Update) : Option Value :=
  (updates.filterMap write).getLast?

@[simp]
theorem lastWrite_nil (write : Update → Option Value) : lastWrite write [] = none := rfl

theorem lastWrite_concat (write : Update → Option Value) (updates : List Update)
    (update : Update) :
    lastWrite write (updates ++ [update]) = (write update).or (lastWrite write updates) := by
  cases hwrite : write update with
  | none => simp [lastWrite, hwrite]
  | some stored => simp [lastWrite, hwrite]

theorem lastWrite_append (write : Update → Option Value) (updates more : List Update) :
    lastWrite write (updates ++ more) = (lastWrite write more).or (lastWrite write updates) := by
  rw [lastWrite, List.filterMap_append, List.getLast?_append]
  rfl

theorem lastWrite_cons (write : Update → Option Value) (update : Update) (updates : List Update) :
    lastWrite write (update :: updates) = (lastWrite write updates).or (write update) := by
  rw [← List.singleton_append, lastWrite_append, ← List.nil_append [update], lastWrite_concat,
    lastWrite_nil, Option.or_none]

/-- What was written last is one of the updates. -/
theorem exists_update_of_lastWrite {write : Update → Option Value} {updates : List Update}
    {stored : Value} (hlast : lastWrite write updates = some stored) :
    ∃ update ∈ updates, write update = some stored :=
  List.mem_filterMap.mp (List.mem_of_getLast? hlast)

/-- The last value that one task has written. -/
def written (write : Update → Option Value) (pool : Pool Shared Control Update)
    (index : ℕ) : Option Value :=
  pool.tasks[index]?.bind fun task => lastWrite write task.made

theorem written_of_getElem? {write : Update → Option Value} {pool : Pool Shared Control Update}
    {index : ℕ} {task : Task Control Update} (hget : pool.tasks[index]? = some task) :
    written write pool index = lastWrite write task.made := by
  rw [written, hget, Option.bind_some]

/-- Replacing one task changes what that task has written and nothing else. -/
theorem written_set {write : Update → Option Value} {pool : Pool Shared Control Update}
    {index : ℕ} {task : Task Control Update} (hget : pool.tasks[index]? = some task)
    (shared : Shared) (replaced : Task Control Update) (other : ℕ) :
    written write ⟨shared, pool.tasks.set index replaced⟩ other =
      if other = index then lastWrite write replaced.made else written write pool other := by
  have hindex : index < pool.tasks.length := (List.getElem?_eq_some_iff.mp hget).1
  by_cases hother : other = index
  · subst hother
    simp [written, hindex]
  · simp [written, Ne.symm hother, hother]

/-- Spawning tasks writes nothing. -/
theorem written_append (write : Update → Option Value) (pool : Pool Shared Control Update)
    (shared : Shared) (spawned : List Control) (index : ℕ) :
    written write ⟨shared, pool.tasks ++ spawned.map Task.start⟩ index =
      written write pool index := by
  rcases Nat.lt_or_ge index pool.tasks.length with hold | hnew
  · simp [written, List.getElem?_append_left hold]
  · rw [written, List.getElem?_append_right hnew, written, List.getElem?_eq_none hnew]
    simp [Task.start, Function.comp_def, Option.bind_map]

/-- A register of the shared state that only the tasks' updates write. -/
structure Register (program : Program Shared Control Update Input Event)
    (value : Shared → Option Value) (write : Update → Option Value) : Prop where
  apply : ∀ update shared,
    value (program.apply update shared) = (write update).or (value shared)
  act : ∀ {shared index control input shared' control' updates},
    program.act shared index control input = some (shared', control', updates) →
      value shared' = value shared
  outside : ∀ {pool : Pool Shared Control Update} {event shared spawned},
    program.outside pool event = some (shared, spawned) →
      value shared = value pool.shared

/-- The next update of some task writes `stored` in this step. -/
def Writes (write : Update → Option Value) (pool : Pool Shared Control Update)
    (move : Move Input Event) (index : ℕ) (stored : Value) : Prop :=
  move = .flush index ∧ ∃ control update rest made,
    pool.tasks[index]? = some ⟨control, update :: rest, made⟩ ∧ write update = some stored

variable {program : Program Shared Control Update Input Event}
variable {value : Shared → Option Value} {write : Update → Option Value}
variable {pool next : Pool Shared Control Update} {move : Move Input Event}

/-- A step leaves the register and everyone's last write alone, or is one
task's write. -/
theorem Register.step (hregister : Register program value write)
    (hstep : TaskPool.step program pool move = some next) :
    (value next.shared = value pool.shared ∧
      (∀ index, written write next index = written write pool index) ∧
      ∀ index stored, ¬ Writes write pool move index stored) ∨
    ∃ index stored, Writes write pool move index stored ∧
      value next.shared = some stored ∧
      ∀ other, written write next other =
        if other = index then some stored else written write pool other := by
  cases move with
  | flush index =>
      obtain ⟨control, update, rest, made, hget, rfl⟩ := step_flush_eq_some.mp hstep
      cases hwrite : write update with
      | none =>
          refine Or.inl ⟨by simp [hregister.apply, hwrite], fun other => ?_, ?_⟩
          · rw [written_set hget, lastWrite_concat, hwrite, Option.none_or]
            by_cases hother : other = index
            · rw [if_pos hother, hother, written_of_getElem? hget]
            · rw [if_neg hother]
          · rintro index' stored ⟨hmove, control', update', rest', made', hget', hwrite'⟩
            cases hmove
            rw [hget] at hget'
            cases hget'
            simp [hwrite] at hwrite'
      | some stored =>
          refine Or.inr ⟨index, stored, ⟨rfl, control, update, rest, made, hget, hwrite⟩,
            by simp [hregister.apply, hwrite], fun other => ?_⟩
          rw [written_set hget, lastWrite_concat, hwrite, Option.some_or]
  | act index input =>
      obtain ⟨control, made, shared, control', updates, hget, hact, rfl⟩ :=
        step_act_eq_some.mp hstep
      refine Or.inl ⟨hregister.act hact, fun other => ?_, by simp [Writes]⟩
      rw [written_set hget]
      by_cases hother : other = index
      · rw [if_pos hother, hother, written_of_getElem? hget]
      · rw [if_neg hother]
  | outside event =>
      obtain ⟨shared, spawned, houtside, rfl⟩ := step_outside_eq_some.mp hstep
      exact Or.inl ⟨hregister.outside houtside, written_append write pool shared spawned,
        by simp [Writes]⟩

/-- Whatever the register holds is the last write of some task. -/
theorem Register.exists_written (hregister : Register program value write) {first : Shared}
    (hfirst : value first = none)
    (hreach : Reachable (TaskPool.step program) ⟨first, []⟩ pool) {stored : Value}
    (hvalue : value pool.shared = some stored) :
    ∃ index, written write pool index = some stored := by
  refine hreach.invariant
    (fun pool => ∀ stored, value pool.shared = some stored →
      ∃ index, written write pool index = some stored) ?_ ?_ stored hvalue
  · intro stored hstored
    simp [hfirst] at hstored
  · intro state move next hstate hstep stored hstored
    rcases hregister.step hstep with
      ⟨hvalue, hwritten, -⟩ | ⟨index, stored', -, hvalue, hwritten⟩
    · obtain ⟨index, hindex⟩ := hstate stored (hvalue ▸ hstored)
      exact ⟨index, (hwritten index).trans hindex⟩
    · refine ⟨index, ?_⟩
      rw [hwritten, if_pos rfl, ← hvalue, hstored]

/-! ## Writers that follow each other -/

/-- The register holds what the latest of the tasks that have written it wrote
last. -/
def HoldsLatest (value : Shared → Option Value) (write : Update → Option Value)
    (pool : Pool Shared Control Update) : Prop :=
  ∀ index stored, written write pool index = some stored →
    (∀ other, index < other → written write pool other = none) →
      value pool.shared = some stored

/-- So it does as long as a task writes only while no later task has written. -/
theorem Register.holdsLatest_step (hregister : Register program value write)
    (hfollow : ∀ index stored, Writes write pool move index stored →
      ∀ other, index < other → written write pool other = none)
    (hholds : HoldsLatest value write pool)
    (hstep : TaskPool.step program pool move = some next) : HoldsLatest value write next := by
  intro latest stored hlatest hnone
  rcases hregister.step hstep with
    ⟨hvalue, hwritten, -⟩ | ⟨index, stored', hwrites, hvalue, hwritten⟩
  · rw [hvalue]
    refine hholds latest stored ((hwritten latest).symm.trans hlatest) fun other hlt => ?_
    exact (hwritten other).symm.trans (hnone other hlt)
  · rw [hwritten] at hlatest
    rcases Nat.lt_trichotomy latest index with hlt | heq | hlt
    · have hwrote := hnone index hlt
      rw [hwritten, if_pos rfl] at hwrote
      cases hwrote
    · rw [if_pos heq] at hlatest
      rw [hvalue, hlatest]
    · rw [if_neg (Nat.ne_of_gt hlt), hfollow index stored' hwrites latest hlt] at hlatest
      cases hlatest

theorem Register.holdsLatest_reachable (hregister : Register program value write) {first : Shared}
    (hfollow : ∀ {pool : Pool Shared Control Update} {move : Move Input Event} {index stored},
      Reachable (TaskPool.step program) ⟨first, []⟩ pool → Writes write pool move index stored →
        ∀ other, index < other → written write pool other = none)
    (hreach : Reachable (TaskPool.step program) ⟨first, []⟩ pool) :
    HoldsLatest value write pool := by
  refine hreach.invariant_of_reachable (HoldsLatest value write) ?_
    fun _ _ _ hstate hholds hstep =>
      hregister.holdsLatest_step (fun _ _ => hfollow hstate) hholds hstep
  intro index stored hwritten
  simp [written] at hwritten

/-! ## A register that is only switched on and off -/

/-- The register is on exactly while some task's last write was `on`, and is
off or was never written otherwise. -/
structure Shows (value : Shared → Option Value) (write : Update → Option Value)
    (on off : Value) (pool : Pool Shared Control Update) : Prop where
  on_iff : value pool.shared = some on ↔ ∃ index, written write pool index = some on
  off_otherwise : (¬ ∃ index, written write pool index = some on) →
    value pool.shared = none ∨ value pool.shared = some off

/-- A task writes `off` while the last write of another task is `on`. -/
def Overwrites (write : Update → Option Value) (on off : Value)
    (pool : Pool Shared Control Update) (move : Move Input Event) : Prop :=
  ∃ index, Writes write pool move index off ∧
    ∃ other, other ≠ index ∧ written write pool other = some on

variable {on off : Value}

/-- When a step writes nothing but `on` and `off`, it keeps the register right
exactly if it does not overwrite another task's `on`. -/
theorem Register.shows_iff (hregister : Register program value write) (hdistinct : on ≠ off)
    (hwrites : ∀ index stored, Writes write pool move index stored →
      stored = on ∨ stored = off)
    (hshows : Shows value write on off pool)
    (hstep : TaskPool.step program pool move = some next) :
    Shows value write on off next ↔ ¬ Overwrites write on off pool move := by
  rcases hregister.step hstep with
    ⟨hvalue, hwritten, hnone⟩ | ⟨index, stored, hwrite, hvalue, hwritten⟩
  · have hkept : Shows value write on off next := by
      constructor
      · rw [hvalue, hshows.on_iff]
        simp only [hwritten]
      · rw [hvalue]
        simp only [hwritten]
        exact hshows.off_otherwise
    refine iff_of_true hkept ?_
    rintro ⟨index, hwrite, -⟩
    exact hnone index off hwrite
  · rcases hwrites index stored hwrite with rfl | rfl
    · have hholder : ∃ index, written write next index = some stored :=
        ⟨index, by rw [hwritten, if_pos rfl]⟩
      refine iff_of_true ⟨iff_of_true hvalue hholder, fun hidle => absurd hholder hidle⟩ ?_
      rintro ⟨index', ⟨hmove', _, _, _, _, hget', hwrite'⟩, -⟩
      obtain ⟨hmove, _, _, _, _, hget, hwrite⟩ := hwrite
      rw [hmove] at hmove'
      cases hmove'
      rw [hget] at hget'
      cases hget'
      rw [hwrite] at hwrite'
      exact hdistinct (Option.some.inj hwrite')
    · have hother : (∃ other, written write next other = some on) ↔
          ∃ other, other ≠ index ∧ written write pool other = some on := by
        refine exists_congr fun other => ?_
        rw [hwritten]
        by_cases heq : other = index
        · simp [heq, hdistinct.symm]
        · simp [heq]
      constructor
      · rintro ⟨hon, -⟩ ⟨index', ⟨hmove', -⟩, hholder⟩
        rw [hwrite.1] at hmove'
        cases hmove'
        have hvalueOn := hon.mpr (hother.mpr hholder)
        rw [hvalue] at hvalueOn
        exact hdistinct (Option.some.inj hvalueOn).symm
      · intro hsafe
        have hidle : ¬ ∃ other, written write next other = some on :=
          fun hholder => hsafe ⟨index, hwrite, hother.mp hholder⟩
        refine ⟨iff_of_false ?_ hidle, fun _ => Or.inr hvalue⟩
        rw [hvalue]
        exact fun heq => hdistinct (Option.some.inj heq).symm

end TcpMonitor.SharedRegister
