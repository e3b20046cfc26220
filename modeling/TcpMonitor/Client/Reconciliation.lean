import TcpMonitor.Client.PeerPool

/-!
# Reloads are reconciled

Every pass of the manager takes the table from whatever it was to the peers of
the config it has read.  The invariant says, at every point of the pass, which
entries of the table are already right, that entries with an unchanged peer are
never touched, and where every task is: in the table, in the hands of the
manager, or cancelled and finished.
-/

namespace TcpMonitor.Reconciliation

open TcpMonitor.TransitionSystem
open TcpMonitor.TaskPool
open TcpMonitor.Runtime
open TcpMonitor.Configuration
open TcpMonitor.MetricFamilies
open TcpMonitor.ReconnectLoop
open TcpMonitor.PeerManager
open TcpMonitor.PeerPool

/-! ## One pass of the manager -/

/-- The entry of a name, if there is one, is the configured peer. -/
def Current (manager : Manager) (name : String) : Prop :=
  ∀ task, manager.tasks.lookup name = some task →
    (newPeers manager.config).lookup name = some task.peer

/-- What holds while a loop stops tasks. -/
def WorkPhase (manager : Manager) : Work → Prop
  | .removing clientCfg names =>
      manager.config.client = some clientCfg ∧
        (∀ name, name ∉ names → Current manager name) ∧
        ∀ name ∈ names, ∀ task, manager.previous.lookup name = some task →
          (newPeers manager.config).lookup name ≠ some task.peer
  | .draining _ => manager.config.client = none ∧ manager.tasks = ∅
  | .shutdown _ => manager.tasks = ∅

/-- How far the table agrees with the config at each point of a pass. -/
def Phase (manager : Manager) : Prop :=
  match manager.point with
  | .stopping work | .joining _ work => WorkPhase manager work
  | .spawning clientCfg peers =>
      manager.config.client = some clientCfg ∧ (∀ name, Current manager name) ∧
        (∀ entry ∈ peers, (newPeers manager.config).lookup entry.1 = some entry.2) ∧
        ∀ name peer, (newPeers manager.config).lookup name = some peer →
          name ∈ manager.tasks ∨ (name, peer) ∈ peers
  | .parked =>
      (manager.config.client = none → manager.tasks = ∅) ∧
        ∀ clientCfg, manager.config.client = some clientCfg → ∀ name,
          (manager.tasks.lookup name).map PeerTask.peer =
            (newPeers manager.config).lookup name
  | .loopHead | .leaving | .exited => True

/-- The manager is in a pass that it began by reading its config. -/
def InPass : ManagerPoint → Prop
  | .stopping (.shutdown _) | .joining _ (.shutdown _) => False
  | .loopHead | .leaving | .exited => False
  | .stopping _ | .joining _ _ | .spawning _ _ | .parked => True

/-- An entry of the table before the pass whose peer is still configured. -/
def Unchanged (manager : Manager) (name : String) (task : PeerTask) : Prop :=
  manager.config.client.isSome = true ∧ manager.previous.lookup name = some task ∧
    (newPeers manager.config).lookup name = some task.peer

/-- What the manager knows about its table and its config. -/
structure Consistent (manager : Manager) : Prop where
  phase : Phase manager
  kept : InPass manager.point → ∀ name task, Unchanged manager name task →
    manager.tasks.lookup name = some task
  seen : manager.point ≠ .loopHead → manager.watch.unseen = false →
    manager.watch.config = manager.config

section Pass

variable {finished : ℕ → Bool} {spawnId : ℕ} {manager manager' : Manager} {effect : Effect}

theorem consistent_startManager (config : Config) : Consistent (startManager config) where
  phase := trivial
  kept hpass := hpass.elim
  seen hpoint := absurd rfl hpoint

/-- The names that are to be removed are those of entries that are not
configured any more. -/
theorem workPhase_read {clientCfg : ClientConfig} {names : List String}
    (hclient : manager.config.client = some clientCfg)
    (hprevious : manager.previous = manager.tasks) (hnames : names.Perm manager.tasks.keys) :
    WorkPhase manager
      (.removing clientCfg (names.filter (outdated manager.config manager.tasks))) := by
  refine ⟨hclient, ?_, ?_⟩
  · intro name hnot task hlookup
    by_contra hother
    refine hnot (List.mem_filter.mpr ⟨?_, ?_⟩)
    · exact hnames.mem_iff.mpr (AList.mem_keys.mp (AList.lookup_isSome.mp (by simp [hlookup])))
    · simpa [outdated, hlookup] using hother
  · intro name hmem task htask
    rw [hprevious] at htask
    have houtdated := (List.mem_filter.mp hmem).2
    simpa [outdated, htask] using houtdated

/-- The loop that removes entries goes on to the next name. -/
theorem WorkPhase.next {clientCfg : ClientConfig} {name : String} {names : List String}
    (hphase : WorkPhase manager (.removing clientCfg (name :: names)))
    (hconfig : manager'.config = manager.config)
    (hprevious : manager'.previous = manager.previous)
    (htasks : ∀ other task, manager'.tasks.lookup other = some task →
      other ≠ name ∧ manager.tasks.lookup other = some task) :
    WorkPhase manager' (.removing clientCfg names) := by
  obtain ⟨hclient, hcurrent, hchanged⟩ := hphase
  refine ⟨hconfig ▸ hclient, ?_, ?_⟩
  · intro other hnot task htask
    obtain ⟨hother, hlookup⟩ := htasks other task htask
    rw [hconfig]
    exact hcurrent other (by simp [hother, hnot]) task hlookup
  · rw [hconfig, hprevious]
    exact fun other hmem => hchanged other (List.mem_cons_of_mem name hmem)

/-- Every configured peer has an entry or its turn is still to come. -/
def Covered (manager : Manager) (peers : List (String × PeerConfig)) : Prop :=
  ∀ name peer, (newPeers manager.config).lookup name = some peer →
    name ∈ manager.tasks ∨ (name, peer) ∈ peers

theorem Covered.next {name : String} {peer : PeerConfig} {peers : List (String × PeerConfig)}
    (hcovered : Covered manager ((name, peer) :: peers))
    (hconfig : manager'.config = manager.config) (hname : name ∈ manager'.tasks)
    (hkeep : ∀ other ∈ manager.tasks, other ∈ manager'.tasks) : Covered manager' peers := by
  intro other peer' hpeer'
  rw [hconfig] at hpeer'
  rcases hcovered other peer' hpeer' with hin | hmem
  · exact Or.inl (hkeep other hin)
  · rcases List.mem_cons.mp hmem with heq | hrest
    · cases heq
      exact Or.inl hname
    · exact Or.inr hrest

/-- When no peer is left to spawn, the table is the configured one. -/
theorem table_of_covered (hcurrent : ∀ name, Current manager name)
    (hcovered : Covered manager []) (name : String) :
    (manager.tasks.lookup name).map PeerTask.peer = (newPeers manager.config).lookup name := by
  cases hlookup : manager.tasks.lookup name with
  | some task => exact (hcurrent name task hlookup).symm
  | none =>
      cases hpeer : (newPeers manager.config).lookup name with
      | none => rfl
      | some peer =>
          rcases hcovered name peer hpeer with hin | hmem
          · exact absurd hin (AList.lookup_eq_none.mp hlookup)
          · cases hmem

/-- A step of the manager keeps its table consistent. -/
theorem Consistent.step (hconsistent : Consistent manager)
    (hstep : ManagerStep finished spawnId manager (manager', effect)) : Consistent manager' := by
  obtain ⟨hphase, hkept, hseen⟩ := hconsistent
  have hkeep : ∀ {point}, manager.point = point → InPass point → ∀ name task,
      Unchanged manager name task → manager.tasks.lookup name = some task := by
    rintro point rfl
    exact hkept
  cases hstep with
  | readNone hpoint hnames hclient =>
      refine ⟨⟨hclient, rfl⟩, ?_, fun _ _ => rfl⟩
      rintro - name task ⟨hsome, -, -⟩
      dsimp only at hsome
      rw [hclient] at hsome
      cases hsome
  | readClient hpoint hnames hclient =>
      exact ⟨workPhase_read hclient rfl hnames, fun _ name task hunchanged => hunchanged.2.1,
        fun _ _ => rfl⟩
  | skip hpoint hlookup =>
      rw [Phase, hpoint] at hphase
      refine ⟨hphase.next rfl rfl ?_, fun _ => hkeep hpoint trivial,
        fun _ => hseen (by simp [hpoint])⟩
      intro other task htask
      refine ⟨?_, htask⟩
      rintro rfl
      exact absurd (hlookup.symm.trans htask) (by simp)
  | @remove clientCfg name names task hpoint hlookup =>
      rw [Phase, hpoint] at hphase
      refine ⟨hphase.next rfl rfl ?_, ?_, fun _ => hseen (by simp [hpoint])⟩
      · intro other task' htask'
        dsimp only at htask'
        by_cases hother : other = name
        · rw [hother, AList.lookup_erase] at htask'
          cases htask'
        · exact ⟨hother, (AList.lookup_erase_ne hother).symm.trans htask'⟩
      · rintro - other task' ⟨hsome, hprevious, hconfigured⟩
        have hother : other ≠ name := by
          rintro rfl
          exact hphase.2.2 other List.mem_cons_self task' hprevious hconfigured
        exact (AList.lookup_erase_ne hother).trans
          (hkeep hpoint trivial other task' ⟨hsome, hprevious, hconfigured⟩)
  | @beginSpawning clientCfg names hpoint hnames =>
      rw [Phase, hpoint] at hphase
      obtain ⟨hclient, hcurrent, -⟩ := hphase
      refine ⟨⟨hclient, fun name => hcurrent name (by simp), ?_, ?_⟩,
        fun _ => hkeep hpoint trivial, fun _ => hseen (by simp [hpoint])⟩
      · intro entry hmem
        obtain ⟨name, -, hentry⟩ := List.mem_filterMap.mp hmem
        obtain ⟨peer, hpeer, rfl⟩ := Option.map_eq_some_iff.mp hentry
        exact hpeer
      · intro name peer hpeer
        refine Or.inr (List.mem_filterMap.mpr ⟨name, ?_, by simp [hpeer]⟩)
        exact hnames.mem_iff.mpr (AList.mem_keys.mp (AList.lookup_isSome.mp (by simp [hpeer])))
  | drainNext hpoint =>
      rw [Phase, hpoint] at hphase
      exact ⟨hphase, fun _ => hkeep hpoint trivial, fun _ => hseen (by simp [hpoint])⟩
  | drained hpoint =>
      rw [Phase, hpoint] at hphase
      obtain ⟨hclient, hempty⟩ := hphase
      refine ⟨⟨fun _ => hempty, ?_⟩, fun _ => hkeep hpoint trivial,
        fun _ => hseen (by simp [hpoint])⟩
      intro clientCfg hsome
      rw [hclient] at hsome
      cases hsome
  | shutdownNext hpoint =>
      rw [Phase, hpoint] at hphase
      exact ⟨hphase, False.elim, fun _ => hseen (by simp [hpoint])⟩
  | exit hpoint => exact ⟨trivial, False.elim, fun _ => hseen (by simp [hpoint])⟩
  | @joined task work hpoint hfinished =>
      rw [Phase, hpoint] at hphase
      refine ⟨hphase, ?_, fun _ => hseen (by simp [hpoint])⟩
      intro hpass
      refine hkeep hpoint ?_
      cases work with
      | removing | draining => trivial
      | shutdown => exact hpass.elim
  | keep hpoint hname =>
      rw [Phase, hpoint] at hphase
      obtain ⟨hclient, hcurrent, hpeers, hcovered⟩ := hphase
      exact ⟨⟨hclient, hcurrent, fun entry hmem => hpeers entry (List.mem_cons_of_mem _ hmem),
        Covered.next hcovered rfl hname fun _ hin => hin⟩, fun _ => hkeep hpoint trivial,
        fun _ => hseen (by simp [hpoint])⟩
  | @spawn clientCfg name peer peers hpoint hname =>
      rw [Phase, hpoint] at hphase
      obtain ⟨hclient, hcurrent, hpeers, hcovered⟩ := hphase
      refine ⟨⟨hclient, ?_, fun entry hmem => hpeers entry (List.mem_cons_of_mem _ hmem), ?_⟩,
        ?_, fun _ => hseen (by simp [hpoint])⟩
      · intro other task htask
        dsimp only at htask ⊢
        by_cases hother : other = name
        · rw [hother, AList.lookup_insert] at htask
          cases htask
          rw [hother]
          exact hpeers _ List.mem_cons_self
        · rw [AList.lookup_insert_ne hother] at htask
          exact hcurrent other task htask
      · exact Covered.next hcovered rfl ((AList.mem_insert _).mpr (Or.inl rfl))
          fun other hin => (AList.mem_insert _).mpr (Or.inr hin)
      · rintro - other task hunchanged
        have hold := hkeep hpoint trivial other task hunchanged
        have hother : other ≠ name := by
          rintro rfl
          exact hname (AList.lookup_isSome.mp (by simp [hold]))
        exact (AList.lookup_insert_ne hother).trans hold
  | reconciled hpoint =>
      rw [Phase, hpoint] at hphase
      obtain ⟨hclient, hcurrent, -, hcovered⟩ := hphase
      refine ⟨⟨?_, fun _ _ => table_of_covered hcurrent hcovered⟩,
        fun _ => hkeep hpoint trivial, fun _ => hseen (by simp [hpoint])⟩
      intro hnone
      rw [hclient] at hnone
      cases hnone
  | wake hpoint hunseen => exact ⟨trivial, False.elim, fun hpoint => absurd rfl hpoint⟩
  | leave hpoint => exact ⟨trivial, False.elim, fun _ => hseen (by simp [hpoint])⟩
  | shutdown hpoint hnames => exact ⟨rfl, False.elim, fun _ => hseen (by simp [hpoint])⟩

/-- Sending a config or closing the channel changes nothing that the manager
has built on. -/
theorem Consistent.listen (hconsistent : Consistent manager) {watch : Watch} {cancel : Bool}
    (hwatch : watch.unseen = true ∨
      watch.unseen = manager.watch.unseen ∧ watch.config = manager.watch.config) :
    Consistent { manager with watch := watch, cancel := cancel } := by
  obtain ⟨hphase, hkept, hseen⟩ := hconsistent
  refine ⟨hphase, hkept, ?_⟩
  intro hpoint hunseen
  dsimp only at hunseen ⊢
  rcases hwatch with htrue | ⟨hsame, hconfig⟩
  · rw [htrue] at hunseen
    cases hunseen
  · rw [hconfig]
    exact hseen hpoint (hsame.symm.trans hunseen)

end Pass

/-! ## Where every task is -/

/-- The tasks that exist after an effect of the manager. -/
def startedAfter (started : PeerTask → Prop) (spawnId : ℕ) : Effect → PeerTask → Prop
  | .spawn peer _, task => started task ∨ task = ⟨peer, spawnId⟩
  | .nothing, task | .cancel _, task => started task

/-- The tokens that are cancelled after an effect of the manager. -/
def cancelledAfter (cancelled : Finset ℕ) : Effect → Finset ℕ
  | .cancel id => insert id cancelled
  | .nothing | .spawn _ _ => cancelled

/-- Every task that was ever started is in the table under the name of its
peer, in the hands of the manager, or cancelled and finished. -/
structure Owned (started : PeerTask → Prop) (finished : ℕ → Bool) (cancelled : Finset ℕ)
    (manager : Manager) : Prop where
  unique : ∀ task other, started task → started other → task.id = other.id → task = other
  table : ∀ name task, manager.tasks.lookup name = some task →
    task.peer.name = name ∧ task.id ∉ cancelled ∧ started task
  held : ∀ task ∈ manager.point.held, started task
  joining : ∀ task work, manager.point = .joining task work → task.id ∈ cancelled
  known : ∀ id ∈ cancelled, ∃ task, started task ∧ task.id = id
  accounted : ∀ task, started task → manager.tasks.lookup task.peer.name = some task ∨
    task ∈ manager.point.held ∨ task.id ∈ cancelled ∧ finished task.id = true
  replaced : ∀ earlier later, started earlier → started later → earlier.id < later.id →
    earlier.peer.name = later.peer.name →
      earlier.id ∈ cancelled ∧ finished earlier.id = true

section Ownership

variable {started : PeerTask → Prop} {finished : ℕ → Bool} {cancelled : Finset ℕ}
variable {spawnId : ℕ} {manager manager' : Manager} {effect : Effect}

theorem Owned.mono (howned : Owned started finished cancelled manager)
    {finished' : ℕ → Bool} (hmono : ∀ id, finished id = true → finished' id = true) :
    Owned started finished' cancelled manager where
  unique := howned.unique
  table := howned.table
  held := howned.held
  joining := howned.joining
  known := howned.known
  accounted task htask :=
    (howned.accounted task htask).imp_right (Or.imp_right fun hdone => ⟨hdone.1, hmono _ hdone.2⟩)
  replaced earlier later hearlier hlater hlt hname :=
    have hdone := howned.replaced earlier later hearlier hlater hlt hname
    ⟨hdone.1, hmono _ hdone.2⟩

/-- A step that moves no task. -/
theorem Owned.goto (howned : Owned started finished cancelled manager)
    (htasks : manager'.tasks = manager.tasks) (hheld : manager'.point.held = manager.point.held)
    (hjoining : ∀ task work, manager'.point = .joining task work →
      manager.point = .joining task work) :
    Owned started finished cancelled manager' where
  unique := howned.unique
  table := by
    rw [htasks]
    exact howned.table
  held := by
    rw [hheld]
    exact howned.held
  joining task work hpoint := howned.joining task work (hjoining task work hpoint)
  known := howned.known
  accounted := by
    rw [htasks, hheld]
    exact howned.accounted
  replaced := howned.replaced

/-- The manager takes all tasks out of its table. -/
theorem Owned.takeAll (howned : Owned started finished cancelled manager)
    (hnone : manager.point.held = []) {names : List String}
    (hnames : names.Perm manager.tasks.keys) (htasks : manager'.tasks = ∅)
    (hheld : manager'.point.held = names.filterMap manager.tasks.lookup)
    (hjoining : ∀ task work, manager'.point ≠ .joining task work) :
    Owned started finished cancelled manager' where
  unique := howned.unique
  table name task hlookup := by
    rw [htasks] at hlookup
    cases hlookup
  held task hmem := by
    rw [hheld] at hmem
    obtain ⟨name, -, hlookup⟩ := List.mem_filterMap.mp hmem
    exact (howned.table name task hlookup).2.2
  joining task work hpoint := absurd hpoint (hjoining task work)
  known := howned.known
  accounted task htask := by
    rw [hheld]
    rcases howned.accounted task htask with hlookup | hmem | hdone
    · refine Or.inr (Or.inl (List.mem_filterMap.mpr ⟨task.peer.name, ?_, hlookup⟩))
      exact hnames.mem_iff.mpr (AList.mem_keys.mp (AList.lookup_isSome.mp (by simp [hlookup])))
    · rw [hnone] at hmem
      cases hmem
    · exact Or.inr (Or.inr hdone)
  replaced := howned.replaced

/-- The manager cancels the next of the tasks it has taken out. -/
theorem Owned.stopNext (howned : Owned started finished cancelled manager)
    (hempty : manager.tasks = ∅) {task : PeerTask} {work : Work}
    (hheld : manager.point.held = task :: work.tasks) :
    Owned started finished (insert task.id cancelled)
      { manager with point := .joining task work } where
  unique := howned.unique
  table name task hlookup := by
    dsimp only at hlookup
    rw [hempty] at hlookup
    cases hlookup
  held := by
    rw [show ManagerPoint.held (.joining task work) = manager.point.held from hheld.symm]
    exact howned.held
  joining other work' hpoint := by
    cases hpoint
    exact Finset.mem_insert_self _ _
  known id hmem := by
    rcases Finset.mem_insert.mp hmem with rfl | hold
    · exact ⟨task, howned.held task (by simp [hheld]), rfl⟩
    · exact howned.known id hold
  accounted other hother := by
    rw [show ManagerPoint.held (.joining task work) = manager.point.held from hheld.symm]
    exact (howned.accounted other hother).imp_right (Or.imp_right fun hdone =>
      ⟨Finset.mem_insert_of_mem hdone.1, hdone.2⟩)
  replaced earlier later hearlier hlater hlt hname :=
    have hdone := howned.replaced earlier later hearlier hlater hlt hname
    ⟨Finset.mem_insert_of_mem hdone.1, hdone.2⟩

/-- The manager takes one task out of its table and cancels it. -/
theorem Owned.remove (howned : Owned started finished cancelled manager)
    (hnone : manager.point.held = []) {name : String} {task : PeerTask} {work : Work}
    (hlookup : manager.tasks.lookup name = some task) (hwork : work.tasks = []) :
    Owned started finished (insert task.id cancelled)
      { manager with tasks := manager.tasks.erase name, point := .joining task work } where
  unique := howned.unique
  table other task' hlookup' := by
    have hother : other ≠ name := by
      rintro rfl
      rw [AList.lookup_erase] at hlookup'
      cases hlookup'
    rw [AList.lookup_erase_ne hother] at hlookup'
    obtain ⟨hname', hrunning, hstarted⟩ := howned.table other task' hlookup'
    obtain ⟨hname, -, hstarted'⟩ := howned.table name task hlookup
    refine ⟨hname', ?_, hstarted⟩
    rw [Finset.mem_insert, not_or]
    refine ⟨?_, hrunning⟩
    intro hid
    rw [howned.unique task' task hstarted hstarted' hid] at hname'
    exact hother (hname'.symm.trans hname)
  held other hmem := by
    obtain rfl : other = task := by simpa [ManagerPoint.held, hwork] using hmem
    exact (howned.table name other hlookup).2.2
  joining other work' hpoint := by
    cases hpoint
    exact Finset.mem_insert_self _ _
  known id hmem := by
    rcases Finset.mem_insert.mp hmem with rfl | hold
    · exact ⟨task, (howned.table name task hlookup).2.2, rfl⟩
    · exact howned.known id hold
  accounted other hother := by
    rcases howned.accounted other hother with hin | hmem | hdone
    · by_cases hname : other.peer.name = name
      · rw [hname, hlookup] at hin
        cases hin
        exact Or.inr (Or.inl List.mem_cons_self)
      · exact Or.inl ((AList.lookup_erase_ne hname).trans hin)
    · rw [hnone] at hmem
      cases hmem
    · exact Or.inr (Or.inr ⟨Finset.mem_insert_of_mem hdone.1, hdone.2⟩)
  replaced earlier later hearlier hlater hlt hname :=
    have hdone := howned.replaced earlier later hearlier hlater hlt hname
    ⟨Finset.mem_insert_of_mem hdone.1, hdone.2⟩

/-- The task that the manager has cancelled has finished. -/
theorem Owned.joined (howned : Owned started finished cancelled manager)
    {task : PeerTask} {work : Work} (hpoint : manager.point = .joining task work)
    (hfinished : finished task.id = true) :
    Owned started finished cancelled { manager with point := .stopping work } where
  unique := howned.unique
  table := howned.table
  held other hmem := howned.held other (by
    rw [hpoint]
    exact List.mem_cons_of_mem _ hmem)
  joining other work' hjoining := by cases hjoining
  known := howned.known
  accounted other hother := by
    rcases howned.accounted other hother with hin | hmem | hdone
    · exact Or.inl hin
    · rw [hpoint] at hmem
      rcases List.mem_cons.mp hmem with rfl | hrest
      · exact Or.inr (Or.inr ⟨howned.joining other work hpoint, hfinished⟩)
      · exact Or.inr (Or.inl hrest)
    · exact Or.inr (Or.inr hdone)
  replaced := howned.replaced

/-- The manager spawns a task for a name that is not in its table. -/
theorem Owned.spawn (howned : Owned started finished cancelled manager)
    (hfresh : ∀ task, started task → task.id < spawnId) {clientCfg : ClientConfig}
    {name : String} {peer : PeerConfig} {peers peers' : List (String × PeerConfig)}
    (hpoint : manager.point = .spawning clientCfg peers) (hname : name ∉ manager.tasks)
    (hpeer : peer.name = name) :
    Owned (startedAfter started spawnId (.spawn peer clientCfg)) finished cancelled
      { manager with
        tasks := manager.tasks.insert name ⟨peer, spawnId⟩
        point := .spawning clientCfg peers' } := by
  have hother : ∀ task, started task → manager.tasks.lookup task.peer.name = some task →
      task.peer.name ≠ name := by
    rintro task - hlookup rfl
    exact hname (AList.lookup_isSome.mp (by simp [hlookup]))
  constructor
  case unique =>
    rintro task other (htask | rfl) (hother | rfl) hid
    · exact howned.unique task other htask hother hid
    · exact absurd hid (hfresh task htask).ne
    · exact absurd hid (hfresh other hother).ne'
    · rfl
  case table =>
    intro other task hlookup
    by_cases hsame : other = name
    · rw [hsame, AList.lookup_insert] at hlookup
      cases hlookup
      refine ⟨hpeer.trans hsame.symm, ?_, Or.inr rfl⟩
      intro hcancelled
      obtain ⟨task, htask, hid⟩ := howned.known spawnId hcancelled
      exact absurd hid (hfresh task htask).ne
    · rw [AList.lookup_insert_ne hsame] at hlookup
      obtain ⟨hpeer', hrunning, hstarted⟩ := howned.table other task hlookup
      exact ⟨hpeer', hrunning, Or.inl hstarted⟩
  case held =>
    intro task hmem
    cases hmem
  case joining =>
    intro task work hjoining
    cases hjoining
  case known =>
    intro id hmem
    obtain ⟨task, htask, hid⟩ := howned.known id hmem
    exact ⟨task, Or.inl htask, hid⟩
  case accounted =>
    rintro task (htask | rfl)
    · rcases howned.accounted task htask with hin | hmem | hdone
      · exact Or.inl ((AList.lookup_insert_ne (hother task htask hin)).trans hin)
      · rw [hpoint] at hmem
        cases hmem
      · exact Or.inr (Or.inr hdone)
    · dsimp only
      rw [hpeer]
      exact Or.inl (AList.lookup_insert _)
  case replaced =>
    rintro earlier later (hearlier | rfl) (hlater | rfl) hlt hsame
    · exact howned.replaced earlier later hearlier hlater hlt hsame
    · rcases howned.accounted earlier hearlier with hin | hmem | hdone
      · exact absurd (hsame.trans hpeer) (hother earlier hearlier hin)
      · rw [hpoint] at hmem
        cases hmem
      · exact hdone
    · exact absurd (hfresh later hlater) (not_lt_of_gt hlt)
    · exact absurd hlt (lt_irrefl _)

/-- A step of the manager leaves every task accounted for. -/
theorem Owned.step (howned : Owned started finished cancelled manager)
    (hconsistent : Consistent manager) (hfresh : ∀ task, started task → task.id < spawnId)
    (hstep : ManagerStep finished spawnId manager (manager', effect)) :
    Owned (startedAfter started spawnId effect) finished (cancelledAfter cancelled effect)
      manager' := by
  have hphase := hconsistent.phase
  cases hstep with
  | readNone hpoint hnames | shutdown hpoint hnames =>
      refine howned.takeAll ?_ hnames rfl rfl (by simp)
      rw [hpoint]
      rfl
  | readClient hpoint | skip hpoint | beginSpawning hpoint | drained hpoint | exit hpoint
  | keep hpoint | reconciled hpoint | wake hpoint | leave hpoint =>
      refine howned.goto rfl ?_ (by simp)
      rw [hpoint]
      rfl
  | @remove clientCfg name names task hpoint hlookup =>
      refine howned.remove ?_ hlookup rfl
      rw [hpoint]
      rfl
  | drainNext hpoint =>
      rw [Phase, hpoint] at hphase
      refine howned.stopNext hphase.2 ?_
      rw [hpoint]
      rfl
  | shutdownNext hpoint =>
      rw [Phase, hpoint] at hphase
      refine howned.stopNext hphase ?_
      rw [hpoint]
      rfl
  | joined hpoint hfinished => exact howned.joined hpoint hfinished
  | spawn hpoint hname =>
      rw [Phase, hpoint] at hphase
      refine howned.spawn hfresh hpoint hname ?_
      exact (mem_of_collectPeers (hphase.2.2.1 _ List.mem_cons_self)).2

end Ownership

/-! ## Runs of the outbound side -/

section Runs

variable {F64 : Type}

/-- A task of the manager is a task of the pool, spawned with its peer. -/
def Started (pool : Peers F64) (task : PeerTask) : Prop :=
  ∃ peerTask, pool.tasks[task.id]? = some peerTask ∧ peerTask.control.peer = task.peer

/-- A task that has been spawned with its peer, has not returned, and whose
token nobody has cancelled. -/
def Running (pool : Peers F64) (task : PeerTask) : Prop :=
  (∃ peerTask, pool.tasks[task.id]? = some peerTask ∧ peerTask.control.peer = task.peer ∧
    peerTask.control.point ≠ .returned) ∧ task.id ∉ pool.shared.cancelled

/-- What holds in every reachable state of the outbound side. -/
structure Sound (pool : Peers F64) : Prop where
  consistent : Consistent pool.shared.manager
  owned : Owned (Started pool) (finished pool) pool.shared.cancelled pool.shared.manager
  stopped : ∀ index peerTask, pool.tasks[index]? = some peerTask →
    peerTask.control.point = .returned → index ∈ pool.shared.cancelled

variable {pool next : Peers F64} {shared : ClientShared F64}

theorem Started.lt {task : PeerTask} (hstarted : Started pool task) :
    task.id < pool.tasks.length := by
  obtain ⟨peerTask, hget, -⟩ := hstarted
  exact (List.getElem?_eq_some_iff.mp hget).1

theorem done_iff {task : PeerLoopTask F64} :
    task.done = true ↔ task.control.point = .returned ∧ task.pending = [] := by
  unfold PeerLoopTask.done
  split
  · next hpoint hpending => simp [hpoint, hpending]
  · next hother => simpa using hother

theorem finished_iff {index : ℕ} :
    finished pool index = true ↔
      ∃ task, pool.tasks[index]? = some task ∧ task.control.point = .returned ∧
        task.pending = [] := by
  simp only [finished, Option.any_eq_true, done_iff]

theorem sound_start [WallClock F64] (config : Config) : Sound (start F64 config) where
  consistent := consistent_startManager config
  owned :=
    { unique := by
        rintro task other ⟨peerTask, hget, -⟩
        cases hget
      table := by
        intro name task hlookup
        cases hlookup
      held := by
        intro task hmem
        cases hmem
      joining := by
        intro task work hpoint
        cases hpoint
      known := by
        intro id hmem
        cases hmem
      accounted := by
        rintro task ⟨peerTask, hget, -⟩
        cases hget
      replaced := by
        rintro earlier later ⟨peerTask, hget, -⟩
        cases hget }
  stopped := by
    intro index peerTask hget
    cases hget

/-- A step of one task: it keeps its peer, stays finished once it is, and
returns only when it has been cancelled. -/
theorem Sound.set (hsound : Sound pool) {index : ℕ} {old new : PeerLoopTask F64}
    (hget : pool.tasks[index]? = some old) (hpeer : new.control.peer = old.control.peer)
    (hdone : old.done = true → new.done = true)
    (hstopped : new.control.point = .returned → index ∈ pool.shared.cancelled)
    (hmanager : shared.manager = pool.shared.manager)
    (hcancelled : shared.cancelled = pool.shared.cancelled) :
    Sound ⟨shared, pool.tasks.set index new⟩ := by
  have hlt := (List.getElem?_eq_some_iff.mp hget).1
  have hstarted : Started ⟨shared, pool.tasks.set index new⟩ = Started pool := by
    funext task
    simp only [Started, eq_iff_iff]
    by_cases hindex : task.id = index
    · simp only [hindex, List.getElem?_set_self hlt, hget, Option.some.injEq, exists_eq_left',
        hpeer]
    · rw [List.getElem?_set_ne (Ne.symm hindex)]
  have hmono : ∀ id, finished pool id = true →
      finished ⟨shared, pool.tasks.set index new⟩ id = true := by
    intro id hfinished
    by_cases hindex : id = index
    · simp only [finished, hindex, hget, Option.any_some] at hfinished
      simpa [finished, hindex, hlt] using hdone hfinished
    · simpa only [finished, List.getElem?_set_ne (Ne.symm hindex)] using hfinished
  constructor
  · dsimp only
    rw [hmanager]
    exact hsound.consistent
  · dsimp only
    rw [hmanager, hcancelled, hstarted]
    exact hsound.owned.mono hmono
  · intro other peerTask hother hreturned
    dsimp only at hother ⊢
    rw [hcancelled]
    by_cases hindex : other = index
    · rw [hindex, List.getElem?_set_self hlt] at hother
      cases hother
      rw [hindex]
      exact hstopped hreturned
    · rw [List.getElem?_set_ne (Ne.symm hindex)] at hother
      exact hsound.stopped other peerTask hother hreturned

section Manage

variable {manager : Manager} {effect : Effect}

theorem perform_manager : (perform shared manager effect).1.manager = manager := by
  cases effect <;> rfl

theorem perform_cancelled :
    (perform shared manager effect).1.cancelled = cancelledAfter shared.cancelled effect := by
  cases effect <;> rfl

theorem started_perform {task : PeerTask} :
    Started ⟨shared, pool.tasks ++ (perform pool.shared manager effect).2.map Task.start⟩ task ↔
      startedAfter (Started pool) pool.tasks.length effect task := by
  cases effect with
  | nothing | cancel => simp [Started, perform, startedAfter]
  | spawn peer clientCfg =>
      simp only [Started, perform, startedAfter, List.map_cons, List.map_nil,
        List.getElem?_append]
      by_cases hlt : task.id < pool.tasks.length
      · have hne : task ≠ ⟨peer, pool.tasks.length⟩ := by
          rintro rfl
          exact absurd hlt (lt_irrefl _)
        simp [hlt, hne]
      · obtain ⟨peer', id⟩ := task
        have hge : pool.tasks.length ≤ id := not_lt.mp hlt
        have hid : id - pool.tasks.length = 0 ↔ id = pool.tasks.length := by omega
        simp only [not_lt, hge, getElem?_neg, Task.start, spawnPeerLoop,
          List.getElem?_singleton, Option.ite_none_left_eq_some,
          Option.ite_none_right_eq_some, Option.some.injEq, true_and, ↓existsAndEq, and_true,
          reduceCtorEq, false_and, exists_false, PeerTask.mk.injEq, false_or]
        constructor
        · rintro ⟨hzero, rfl⟩
          exact ⟨rfl, hid.mp hzero⟩
        · rintro ⟨rfl, hlength⟩
          exact ⟨hid.mpr hlength, rfl⟩

theorem finished_append {index : ℕ} {spawned : List (PeerLoopTask F64)}
    (hfinished : finished pool index = true) :
    finished ⟨shared, pool.tasks ++ spawned⟩ index = true := by
  obtain ⟨task, hget, hdone⟩ := finished_iff.mp hfinished
  have hlt := (List.getElem?_eq_some_iff.mp hget).1
  exact finished_iff.mpr ⟨task, (List.getElem?_append_left hlt).trans hget, hdone⟩

/-- A step of the manager, with what it does to the tasks. -/
theorem Sound.manage (hsound : Sound pool)
    (hstep : ManagerStep (finished pool) pool.tasks.length pool.shared.manager
      (manager, effect)) :
    Sound ⟨(perform pool.shared manager effect).1,
      pool.tasks ++ (perform pool.shared manager effect).2.map Task.start⟩ := by
  have hstarted : Started ⟨(perform pool.shared manager effect).1,
      pool.tasks ++ (perform pool.shared manager effect).2.map Task.start⟩ =
        startedAfter (Started pool) pool.tasks.length effect := by
    funext task
    exact propext started_perform
  constructor
  · dsimp only
    rw [perform_manager]
    exact hsound.consistent.step hstep
  · dsimp only
    rw [perform_manager, perform_cancelled, hstarted]
    exact (hsound.owned.step hsound.consistent (fun _ => Started.lt) hstep).mono
      fun _ => finished_append
  · intro index task hget hreturned
    dsimp only at hget ⊢
    rw [perform_cancelled]
    by_cases hlt : index < pool.tasks.length
    · rw [List.getElem?_append_left hlt] at hget
      have hcancelled := hsound.stopped index task hget hreturned
      cases effect with
      | nothing | spawn => exact hcancelled
      | cancel => exact Finset.mem_insert_of_mem hcancelled
    · rw [List.getElem?_append_right (not_lt.mp hlt)] at hget
      obtain ⟨loop, hloop, rfl⟩ := List.mem_map.mp (List.mem_of_getElem? hget)
      cases effect with
      | nothing | cancel => cases hloop
      | spawn =>
          rw [List.mem_singleton.mp hloop] at hreturned
          cases hreturned

end Manage

/-- Every step of the process keeps the manager and its tasks in order. -/
theorem Sound.step [WallClock F64] (hsound : Sound pool) {move : ClientMove F64}
    (hstep : TaskPool.step (program F64) pool move = some next) : Sound next := by
  cases move with
  | flush index =>
      obtain ⟨control, update, rest, made, hget, rfl⟩ := step_flush_eq_some.mp hstep
      refine hsound.set hget rfl ?_ (fun hreturned => hsound.stopped index _ hget hreturned)
        rfl rfl
      rw [done_iff]
      rintro ⟨-, hpending⟩
      cases hpending
  | act index input =>
      obtain ⟨loop, made, shared, loop', updates, hget, hact, rfl⟩ :=
        step_act_eq_some.mp hstep
      obtain ⟨rfl, hloop, hallowed⟩ := act_eq_some hact
      refine hsound.set hget hloop.arguments_eq.1 ?_ ?_ rfl rfl
      · rw [done_iff]
        rintro ⟨hreturned, -⟩
        exact absurd hreturned hloop.not_returned
      · intro hreturned
        exact hallowed (hloop.completion_of_returned hreturned)
  | outside event =>
      obtain ⟨shared, spawned, houtside, rfl⟩ := step_outside_eq_some.mp hstep
      rcases outside_cases houtside with ⟨manager, effect, hmanage, hperform⟩ |
        ⟨watch, cancel, hwatch, rfl, rfl⟩ | ⟨update, -, rfl, rfl⟩
      · obtain ⟨rfl, rfl⟩ := Prod.mk.inj hperform
        exact hsound.manage hmanage
      · rw [List.map_nil, List.append_nil]
        exact ⟨hsound.consistent.listen hwatch, hsound.owned.goto rfl rfl fun _ _ => id,
          hsound.stopped⟩
      · rw [List.map_nil, List.append_nil]
        exact ⟨hsound.consistent, hsound.owned, hsound.stopped⟩

theorem Sound.reachable [WallClock F64] {config : Config}
    (hreach : Reachable (TaskPool.step (program F64)) (start F64 config) pool) : Sound pool :=
  hreach.invariant Sound (sound_start config) fun _ _ _ hsound hstep => hsound.step hstep

/-! ## The reconciled table -/

/-- The peers that a config asks for; without a `[client]` section, none. -/
def servedPeers (config : Config) : List PeerConfig :=
  match config.client with
  | none => []
  | some _ => config.peers

/-- The table has exactly one entry for each of the peers, under its name, and
the task of the entry runs with exactly that peer.  All other tasks have
finished. -/
structure Serves (pool : Peers F64) (peers : List PeerConfig) : Prop where
  keys : pool.shared.manager.tasks.keys.Perm (peers.map PeerConfig.name)
  running : ∀ peer ∈ peers, ∃ task, pool.shared.manager.tasks.lookup peer.name = some task ∧
    task.peer = peer ∧ Running pool task
  others : ∀ task, Started pool task →
    pool.shared.manager.tasks.lookup task.peer.name ≠ some task → finished pool task.id = true

/-- The task of an entry of the table is running. -/
theorem Sound.running (hsound : Sound pool) {name : String} {task : PeerTask}
    (hlookup : pool.shared.manager.tasks.lookup name = some task) : Running pool task := by
  obtain ⟨-, hrunning, peerTask, hget, hpeer⟩ := hsound.owned.table name task hlookup
  exact ⟨⟨peerTask, hget, hpeer, fun hreturned =>
    hrunning (hsound.stopped task.id peerTask hget hreturned)⟩, hrunning⟩

/-- The manager is in its `select!` and has seen every config that was sent. -/
theorem Sound.serves (hsound : Sound pool) (hparked : pool.shared.manager.point = .parked)
    (hunseen : pool.shared.manager.watch.unseen = false)
    (hdistinct : (pool.shared.manager.watch.config.peers.map PeerConfig.name).Nodup) :
    Serves pool (servedPeers pool.shared.manager.watch.config) := by
  have hphase := hsound.consistent.phase
  rw [Phase, hparked] at hphase
  obtain ⟨hnone, hsome⟩ := hphase
  have hseen := hsound.consistent.seen (by simp [hparked]) hunseen
  rw [← hseen] at hnone hsome
  constructor
  case others =>
    intro task htask hother
    rcases hsound.owned.accounted task htask with hin | hmem | hdone
    · exact absurd hin hother
    · rw [hparked] at hmem
      cases hmem
    · exact hdone.2
  case keys =>
    unfold servedPeers
    split
    · next hclient =>
        rw [hnone hclient]
        rfl
    · next clientCfg hclient =>
        refine (List.perm_ext_iff_of_nodup (AList.keys_nodup _) hdistinct).mpr fun name => ?_
        rw [← mem_newPeers hdistinct, ← AList.mem_keys, ← AList.lookup_isSome,
          ← AList.lookup_isSome, ← hsome clientCfg hclient name, Option.isSome_map]
  case running =>
    unfold servedPeers
    split
    · rintro peer hmem
      cases hmem
    · next clientCfg hclient =>
        intro peer hmem
        have htable := hsome clientCfg hclient peer.name
        rw [newPeers, collectPeers_of_mem hdistinct hmem] at htable
        obtain ⟨task, hlookup, hpeer⟩ := Option.map_eq_some_iff.mp htable
        exact ⟨task, hlookup, hpeer, hsound.running hlookup⟩

/-- Reconciliation of reloads, over all runs of the manager, its peer tasks and
the senders of configs.  Whenever the manager is in its `select!` and has seen
every config that was sent, it serves exactly the peers of the last one.  In a
pass over a config, a task whose peer is unchanged stays in the table and keeps
running.  Before a second task is spawned for a name, the first has been
cancelled and has finished, so two tasks for one name never run together. -/
theorem reload_reconciled [WallClock F64] {config : Config}
    (hreach : Reachable (TaskPool.step (program F64)) (start F64 config) pool) :
    (pool.shared.manager.point = .parked → pool.shared.manager.watch.unseen = false →
      (pool.shared.manager.watch.config.peers.map PeerConfig.name).Nodup →
        Serves pool (servedPeers pool.shared.manager.watch.config)) ∧
      (InPass pool.shared.manager.point → ∀ name task,
        Unchanged pool.shared.manager name task →
          pool.shared.manager.tasks.lookup name = some task ∧ Running pool task) ∧
      (∀ earlier later, Started pool earlier → Started pool later →
        earlier.id < later.id → earlier.peer.name = later.peer.name →
          earlier.id ∈ pool.shared.cancelled ∧ finished pool earlier.id = true) ∧
      ∀ task other, Started pool task → Started pool other →
        task.peer.name = other.peer.name → finished pool task.id = false →
          finished pool other.id = false → task = other := by
  have hsound := Sound.reachable hreach
  refine ⟨hsound.serves, ?_, hsound.owned.replaced, ?_⟩
  · intro hpass name task hunchanged
    have hlookup := hsound.consistent.kept hpass name task hunchanged
    exact ⟨hlookup, hsound.running hlookup⟩
  · intro task other htask hother hname hrunning hrunning'
    rcases lt_trichotomy task.id other.id with hlt | heq | hlt
    · have hdone := (hsound.owned.replaced task other htask hother hlt hname).2
      rw [hrunning] at hdone
      cases hdone
    · exact hsound.owned.unique task other htask hother heq
    · have hdone := (hsound.owned.replaced other task hother htask hlt hname.symm).2
      rw [hrunning'] at hdone
      cases hdone

end Runs

section Witness

/-- A config with a `[client]` section and these peers. -/
def monitoring (peers : List PeerConfig) : Config where
  node := ⟨"n"⟩
  server := ⟨"[::]", 4000, 4001, 4002, 30, 30⟩
  client := some everySecond.toClientConfig
  peers := peers

/-- One of two peers changes its port; while its task is being stopped, a
config with a third peer arrives. -/
def reloadTwice : List (ClientMove WholeSeconds) :=
  [.outside (.manage (.order [])), .outside (.manage (.order ["b", "a"])),
    .outside (.manage .go), .outside (.manage .go), .outside (.manage .go),
    .act 0 (⟨0, ⟨0⟩⟩, .ready),
    .outside (.send (monitoring [⟨"a", "h", 1⟩, ⟨"b", "h", 2⟩])),
    .outside (.manage .changed), .outside (.manage (.order ["a", "b"])),
    .outside (.manage .go),
    .outside (.send (monitoring [⟨"a", "h", 1⟩, ⟨"b", "h", 2⟩, ⟨"c", "h", 3⟩]))] ++
  List.replicate 9 (.flush 0) ++
  [.act 0 (⟨0, ⟨0⟩⟩, .cancelled),
    .outside (.manage .go), .outside (.manage (.order ["a", "b"])),
    .outside (.manage .go), .outside (.manage .go), .outside (.manage .go),
    .outside (.manage .changed), .outside (.manage (.order ["a", "b"])),
    .outside (.manage (.order ["c", "a", "b"])), .outside (.manage .go),
    .outside (.manage .go), .outside (.manage .go), .outside (.manage .go)]

/-- The table ends up with the peers of the last config, and the task of the
peer that no config has changed is the first one. -/
theorem reload_reconciled_twice :
    ∃ pool, run (TaskPool.step (program WholeSeconds))
        (start WholeSeconds (monitoring [⟨"a", "h", 1⟩, ⟨"b", "h", 1⟩])) reloadTwice =
          some pool ∧
      pool.shared.manager.tasks.lookup "a" = some ⟨⟨"a", "h", 1⟩, 1⟩ ∧
      Serves pool [⟨"a", "h", 1⟩, ⟨"b", "h", 2⟩, ⟨"c", "h", 3⟩] := by
  obtain ⟨pool, hrun, hview⟩ := Option.map_eq_some_iff.mp (show
    (run (TaskPool.step (program WholeSeconds))
      (start WholeSeconds (monitoring [⟨"a", "h", 1⟩, ⟨"b", "h", 1⟩])) reloadTwice).map
        (fun pool => (pool.shared.manager.point, pool.shared.manager.watch.unseen,
          pool.shared.manager.watch.config, pool.shared.manager.tasks.lookup "a")) =
      some (.parked, false, monitoring [⟨"a", "h", 1⟩, ⟨"b", "h", 2⟩, ⟨"c", "h", 3⟩],
        some ⟨⟨"a", "h", 1⟩, 1⟩) by decide +kernel)
  simp only [Prod.mk.injEq] at hview
  obtain ⟨hparked, hunseen, hconfig, hlookup⟩ := hview
  have hserves := (reload_reconciled (Reachable.of_run hrun)).1 hparked hunseen
  rw [hconfig] at hserves
  exact ⟨pool, hrun, hlookup, hserves (by decide)⟩

end Witness

end TcpMonitor.Reconciliation
