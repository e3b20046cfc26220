import TcpMonitor.Client.SessionConservation
import TcpMonitor.WholeProcess

/-!
# One node identity at a time

The node name is copied when the accept loop starts and again whenever a peer
task is spawned.  A task uses its own copy for all its labels and in its
handshakes, so the copies drift apart exactly when the manager spawns a task
from a config with another name than the one the process was started with.
-/

namespace TcpMonitor.NodeIdentity

open TcpMonitor.TransitionSystem
open TcpMonitor.TaskPool
open TcpMonitor.Runtime
open TcpMonitor.Configuration
open TcpMonitor.MetricFamilies
open TcpMonitor.Session
open TcpMonitor.SessionConservation
open TcpMonitor.ReconnectLoop
open TcpMonitor.PeerManager
open TcpMonitor.PeerPool hiding start program act_eq_some
open TcpMonitor.SessionPool hiding start program act_eq_some
open TcpMonitor.InboundSession
open TcpMonitor.Handshake
open TcpMonitor.WholeProcess
open TcpMonitor.WholeProcess.Process

/-! ## What a task does under its name -/

section Uses

variable {F64 : Type}

/-- The `node` label of the entry that an update accesses. -/
def nodeOf : Update F64 → String
  | .setGauge _ label _ | .setFloat _ label _ | .incCounter _ label => label.node
  | .incDisconnect _ label | .createDisconnect _ label => label.node

/-- A peer task updates metrics of `name` and announces `name`. -/
structure PeerUses (name : String) (task : PeerLoopTask F64) : Prop where
  updates : ∀ update ∈ task.made ++ task.pending, nodeOf update = name
  label : ∀ point vars, task.control.point = .session point → point.live = some vars →
    vars.label = ⟨name, task.control.peer.name⟩
  handshake : ∀ unsent, task.control.point = .session (.handshake unsent) →
    unsent <:+ sendHandshake name

/-- A server session updates metrics of `name`. -/
structure SessionUses (name : String) (task : SessionTask F64) : Prop where
  updates : ∀ update ∈ task.made ++ task.pending, nodeOf update = name
  label : ∀ label startTs drive, task.control.point = .driving label startTs drive →
    label.node = name

/-- All live peer tasks and all live server sessions use one name, which is also
the one that the peer tasks were spawned with. -/
def OneIdentity (state : Process F64) : Prop :=
  ∃ name, (∀ task ∈ state.peerTasks, task.done = false →
      task.control.nodeName = name ∧ PeerUses name task) ∧
    ∀ task ∈ state.sessions, holdsPermit F64 task = true → SessionUses name task

end Uses

/-! ## The labels of updates -/

section Labels

variable {F64 : Type} {label : PeerLabel}

theorem node_initDisconnectLabels (node peer : String) :
    ∀ update ∈ initDisconnectLabels F64 node peer, nodeOf update = node := by
  intro update hmem
  rcases List.mem_append.mp hmem with hmem | hmem
  · obtain ⟨reason, -, rfl⟩ := List.mem_map.mp hmem
    rfl
  · obtain ⟨reason, -, rfl⟩ := List.mem_map.mp hmem
    rfl

theorem node_recordSessionStart (startTs : F64) :
    ∀ update ∈ recordSessionStart label startTs, nodeOf update = label.node := by
  simp [recordSessionStart, nodeOf]

theorem node_sessionEnd (duration : F64) (reason : String) :
    ∀ update ∈ sessionEnd label duration reason, nodeOf update = label.node := by
  by_cases hcancelled : reason = "cancelled" <;> simp [sessionEnd, nodeOf, hcancelled]

theorem node_recordMiss (missed : ℤ) :
    ∀ update ∈ (recordMiss label missed : List (Update F64)), nodeOf update = label.node := by
  simp [recordMiss, nodeOf]

theorem node_recordEcho [WallClock F64] (startTs nowTs : F64) (sendTs : Option F64) :
    ∀ update ∈ recordEcho label startTs nowTs sendTs, nodeOf update = label.node := by
  cases sendTs <;> simp [recordEcho, nodeOf]

theorem node_startUpdates (startTs : F64) :
    ∀ update ∈ startUpdates label startTs, nodeOf update = label.node := by
  intro update hmem
  rcases List.mem_append.mp hmem with hinit | hstart
  · exact node_initDisconnectLabels _ _ update hinit
  · simp only [List.mem_cons, List.not_mem_nil, or_false] at hstart
    rcases hstart with rfl | rfl | rfl <;> rfl

theorem node_heartbeatUpdates [WallClock F64] (startTs now : F64) :
    ∀ update ∈ heartbeatUpdates label startTs now, nodeOf update = label.node := by
  simp [heartbeatUpdates, nodeOf]

theorem node_endUpdates (duration : F64) (reason : String) :
    ∀ update ∈ endUpdates label duration reason, nodeOf update = label.node := by
  simp [endUpdates, nodeOf]

end Labels

/-! ## One step of a task -/

section Steps

variable {F64 : Type} [WallClock F64] {clock : Reading F64} {completion : Completion}

theorem sessionStep_nodes {nodeName peerName : String} {clientCfg : ClientConfig}
    {point : SessionPoint F64} {after : SessionPoint F64 × List (Update F64)}
    (hstep : SessionStep nodeName peerName clientCfg point clock completion after)
    (hown : ∀ vars, point.live = some vars → vars.label = ⟨nodeName, peerName⟩) :
    ∀ update ∈ after.2, nodeOf update = nodeName := by
  have hnode : ∀ vars, point.live = some vars → vars.label.node = nodeName :=
    fun vars hlive => congrArg PeerLabel.node (hown vars hlive)
  intro update hmem
  cases hstep with
  | handshakePart | handshakeError | sleep | due | wake | sendPart | readPart => cases hmem
  | established => exact node_recordSessionStart _ update hmem
  | sent =>
      rw [List.mem_singleton.mp hmem]
      exact hnode _ rfl
  | writeError | readError => exact (node_sessionEnd _ _ update hmem).trans (hnode _ rfl)
  | cancelled hpoint =>
      exact (node_sessionEnd _ _ update hmem).trans
        (hnode _ (SessionPoint.live_of_interruptible hpoint))
  | @deadline vars sentSeq sendTs deadline gotEcho clock hdue =>
      rcases endWait_cases clientCfg vars gotEcho clock with
        ⟨-, heq⟩ | ⟨-, -, heq⟩ | ⟨-, -, heq⟩
      · rw [heq] at hmem
        cases hmem
      · rw [heq] at hmem
        exact (node_recordMiss _ update hmem).trans (hnode _ rfl)
      · rw [heq] at hmem
        rcases List.mem_append.mp hmem with hmiss | hend
        · exact (node_recordMiss _ update hmiss).trans (hnode _ rfl)
        · exact (node_sessionEnd _ _ update hend).trans (hnode _ rfl)
  | @echo vars sentSeq sendTs deadline gotEcho clock outcome echoes echo hread =>
      rcases readEcho_cases { vars with echoes := echoes } sentSeq sendTs deadline clock echo with
        ⟨-, heq⟩ | ⟨-, heq⟩
      · rw [heq] at hmem
        exact (node_recordEcho vars.startTs clock.wall (some sendTs) update hmem).trans
          (hnode vars rfl)
      · rw [heq] at hmem
        exact (node_recordEcho vars.startTs clock.wall none update hmem).trans (hnode vars rfl)

theorem PeerUses.act {loop : PeerLoop F64} {after : PeerLoop F64 × List (Update F64)}
    {made : List (Update F64)} (huses : PeerUses loop.nodeName ⟨loop, [], made⟩)
    (hstep : LoopStep loop clock completion after) :
    PeerUses loop.nodeName ⟨after.1, after.2, made⟩ := by
  obtain ⟨hmade, hlabel, hhandshake⟩ := huses
  rw [List.append_nil] at hmade
  have hupdates : (∀ update ∈ after.2, nodeOf update = loop.nodeName) →
      ∀ update ∈ made ++ after.2, nodeOf update = loop.nodeName :=
    fun hnew => List.forall_mem_append.mpr ⟨hmade, hnew⟩
  have harguments := hstep.arguments_eq
  have hown : ∀ point vars, after.1.point = .session point → point.live = some vars →
      vars.label = ⟨loop.nodeName, after.1.peer.name⟩ := by
    intro point vars hpoint hlive
    rw [harguments.1]
    exact (loopStep_own hstep hlabel point vars hpoint hlive).trans harguments.2
  refine ⟨hupdates ?_, hown, fun unsent' hpoint => ?_⟩
  · cases hstep with
    | begin => exact node_initDisconnectLabels _ _
    | connected | retry | cancelled => exact List.forall_mem_nil _
    | connectFailed =>
        intro update hmem
        rw [List.mem_singleton.mp hmem]
        rfl
    | session hpoint hsession | sessionEnded hpoint hsession =>
        exact sessionStep_nodes hsession fun vars hlive => hlabel _ vars hpoint hlive
  · cases hstep with
    | begin | connectFailed | retry | cancelled => cases hpoint
    | connected =>
        cases hpoint
        exact List.suffix_rfl
    | session hold hsession =>
        cases hpoint
        obtain ⟨unsent, rfl, hsuffix⟩ := SessionStep.handshake_suffix hsession rfl
        exact hsuffix.trans (hhandshake unsent hold)
    | sessionEnded =>
        dsimp only at hpoint
        split at hpoint <;> cases hpoint

omit [WallClock F64] in
/-- Making an update that is due changes nothing about the uses of a name. -/
theorem PeerUses.flush {name : String} {loop : PeerLoop F64} {update : Update F64}
    {rest made : List (Update F64)} (huses : PeerUses name ⟨loop, update :: rest, made⟩) :
    PeerUses name ⟨loop, rest, made ++ [update]⟩ := by
  obtain ⟨hupdates, hlabel, hhandshake⟩ := huses
  refine ⟨?_, hlabel, hhandshake⟩
  rwa [List.append_assoc]

/-- A peer task uses the name it was spawned with. -/
theorem peerUses_invariant (F64 : Type) [WallClock F64] :
    TaskInvariant (PeerPool.program F64)
      fun _ (task : PeerLoopTask F64) => PeerUses task.control.nodeName task where
  stable hstep task huses := huses
  spawn houtside loop hmem := by
    obtain ⟨-, name, peer, settings, peers, -, -, -, rfl⟩ := mem_spawned houtside hmem
    refine ⟨List.forall_mem_nil _, fun point vars hpoint => ?_, fun unsent hpoint => ?_⟩
    · cases hpoint
    · cases hpoint
  flush huses := huses.flush
  act := fun {shared index loop input made shared' loop' updates} huses hact => by
    obtain ⟨-, hloop, -⟩ := PeerPool.act_eq_some hact
    have hname : loop'.nodeName = loop.nodeName := congrArg PeerLabel.node hloop.arguments_eq.2
    dsimp only
    rw [hname]
    exact huses.act hloop

end Steps

section ServerSteps

variable {F64 : Type} [UnicodeTables] [WallClock F64]

/-- A server session uses the name that the accept loop holds. -/
theorem sessionUses_invariant (nodeName : String) :
    TaskInvariant (SessionPool.program nodeName)
      fun _ (task : SessionTask F64) => SessionUses nodeName task where
  stable hstep task huses := huses
  spawn houtside connection hmem := by
    have hpoint := (SessionPool.outside_eq_some houtside).2 connection hmem
    refine ⟨List.forall_mem_nil _, fun label startTs drive hdriving => ?_⟩
    rw [Task.start, hpoint] at hdriving
    cases hdriving
  flush huses := by
    obtain ⟨hupdates, hlabel⟩ := huses
    refine ⟨?_, hlabel⟩
    rwa [List.append_assoc]
  act huses hact := by
    obtain ⟨hmade, hlabel⟩ := huses
    rw [List.append_nil] at hmade
    obtain ⟨peers, hhandle, -⟩ := SessionPool.act_eq_some hact
    rcases handleConnection_cases hhandle with
      ⟨-, hafter, -, rfl⟩ | ⟨peerName, -, -, -, hpoint', rfl⟩ |
        ⟨label, startTs, drive, drive', hpoint, hpoint', -, hupdates⟩ |
          ⟨label, startTs, drive, reason, hpoint, hpoint', -, -, rfl⟩
    · refine ⟨List.forall_mem_append.mpr ⟨hmade, List.forall_mem_nil _⟩,
        fun label startTs drive hdriving => ?_⟩
      dsimp only at hdriving
      rw [hdriving] at hafter
      rcases hafter with hbefore | hrejected
      · cases hbefore
      · cases hrejected
    · refine ⟨List.forall_mem_append.mpr ⟨hmade, node_startUpdates _⟩,
        fun label startTs drive hdriving => ?_⟩
      cases hpoint'.symm.trans hdriving
      rfl
    · have hnode := hlabel label startTs drive hpoint
      refine ⟨List.forall_mem_append.mpr ⟨hmade, ?_⟩, fun label' startTs' drive'' hdriving => ?_⟩
      · rcases hupdates with rfl | rfl
        · exact List.forall_mem_nil _
        · exact fun update hmem => (node_heartbeatUpdates _ _ update hmem).trans hnode
      · cases hpoint'.symm.trans hdriving
        exact hnode
    · refine ⟨List.forall_mem_append.mpr ⟨hmade, fun update hmem => ?_⟩,
        fun label' startTs' drive'' hdriving => ?_⟩
      · exact (node_endUpdates _ _ update hmem).trans (hlabel label startTs drive hpoint)
      · cases hpoint'.symm.trans hdriving

end ServerSteps

/-! ## Runs of the process -/

section Runs

variable {F64 : Type} [UnicodeTables] [WallClock F64] {state next : Process F64}
variable {event : ProcessEvent F64}

/-- If the step spawns a peer task, then from a config with the name that the
process was started with. -/
def SpawnsUnderOwnName (state : Process F64) (event : ProcessEvent F64) : Prop :=
  ∀ input clientCfg name peer peers, event = .outbound (.outside (.manage input)) →
    state.manager.point = .spawning clientCfg ((name, peer) :: peers) →
      name ∉ state.manager.tasks → state.manager.config.node.name = state.nodeName

/-- Every task uses the name it was given; sessions are given the name that the
process was started with. -/
structure Named (state : Process F64) : Prop where
  peerTasks : ∀ task ∈ state.peerTasks, PeerUses task.control.nodeName task
  sessions : ∀ task ∈ state.sessions, SessionUses state.nodeName task

/-- Peer tasks are given that name as well. -/
def SpawnedUnderOwnName (state : Process F64) : Prop :=
  ∀ (i : ℕ) task, state.peerTasks[i]? = some task → task.control.nodeName = state.nodeName

theorem named_step (hinv : Named state) (hstep : ProcessStep state event next) : Named next := by
  cases hstep with
  | outbound hown hpool =>
      exact { hinv with peerTasks := (peerUses_invariant F64).step hinv.peerTasks hpool }
  | inbound hown hpool =>
      exact { hinv with
        sessions := (sessionUses_invariant state.nodeName).step hinv.sessions hpool }
  | acceptProbe | probe => exact { hinv with }
  | around hframe =>
      obtain ⟨-, hname, hpeerTasks, hsessions, -⟩ := hframe
      refine ⟨hpeerTasks ▸ hinv.peerTasks, ?_⟩
      rw [hname, hsessions]
      exact hinv.sessions

theorem spawnedUnderOwnName_step (hinv : SpawnedUnderOwnName state)
    (hstep : ProcessStep state event next) (hsafe : SpawnsUnderOwnName state event) :
    SpawnedUnderOwnName next := by
  cases hstep with
  | @outbound move pool hown hpool =>
      refine forall_control_step
        (P := fun (_ : ℕ) (loop : PeerLoop F64) => loop.nodeName = state.nodeName)
        (fun _ hact hname => ?_) (fun hmove houtside loop hmem index hindex => ?_) hpool hinv
      · obtain ⟨-, hloop, -⟩ := PeerPool.act_eq_some hact
        exact (congrArg PeerLabel.node hloop.arguments_eq.2).trans hname
      · obtain ⟨input, name, peer, settings, peers, rfl, hpoint, hname, rfl⟩ :=
          mem_spawned houtside hmem
        exact hsafe input settings name peer peers (by rw [hmove]) hpoint hname
  | inbound | acceptProbe | probe => exact hinv
  | around hframe =>
      obtain ⟨-, hname, hpeerTasks, -⟩ := hframe
      intro i task hget
      rw [hpeerTasks] at hget
      exact (hinv i task hget).trans hname.symm

omit [UnicodeTables] [WallClock F64] in
theorem oneIdentity_of_named (hnamed : Named state) (hspawned : SpawnedUnderOwnName state) :
    OneIdentity state := by
  refine ⟨state.nodeName, fun task hmem _ => ?_, fun task hmem _ => hnamed.sessions task hmem⟩
  obtain ⟨i, hget⟩ := List.mem_iff_getElem?.mp hmem
  have hname := hspawned i task hget
  exact ⟨hname, hname ▸ hnamed.peerTasks task hmem⟩

variable [SocketAddrParser] [TomlParser] {path : String}

/-- A step that spawns a task under another name leaves that task running. -/
theorem exists_other_name (hstep : Process.step path state event = some next)
    (hbroken : ¬ SpawnsUnderOwnName state event) :
    ∃ task ∈ next.peerTasks, task.done = false ∧ task.control.nodeName ≠ next.nodeName := by
  simp only [SpawnsUnderOwnName, not_forall] at hbroken
  obtain ⟨input, settings, name, peer, peers, rfl, hpoint, hname, hother⟩ := hbroken
  obtain ⟨-, pool, hpool, rfl⟩ := step_outbound hstep
  obtain ⟨shared, spawned, houtside, rfl⟩ := step_outside_eq_some.mp hpool
  obtain ⟨⟨manager, effect⟩, hrun, heq⟩ := Option.map_eq_some_iff.mp houtside
  change runManager _ _ state.manager input = some (manager, effect) at hrun
  cases input with
  | order | changed | cancelled =>
      simp only [runManager, hpoint] at hrun
      cases hrun
  | go =>
      simp only [runManager, hpoint, if_neg hname] at hrun
      cases hrun
      cases heq
      exact ⟨Task.start (spawnPeerLoop peer settings state.manager.config.node.name),
        List.mem_append_right _ List.mem_cons_self, rfl, hother⟩

/-- Node names over all runs of the process, with any sequence of reloads.  If
peer tasks are spawned only from configs with the name that the process was
started with, then in every state of the run all live peer tasks and all live
sessions use one name for their labels, and peer tasks for their handshakes.
And only then do all live peer tasks have the name that sessions are given. -/
theorem one_node_identity (path : String) (config : Config) (events : List (ProcessEvent F64)) :
    ((∀ move ∈ taken (Process.step path) (start F64 config) events,
        SpawnsUnderOwnName move.1 move.2) →
      ∀ state ∈ visited (Process.step path) (start F64 config) events, OneIdentity state) ∧
    ((∀ state ∈ visited (Process.step path) (start F64 config) events,
        ∀ task ∈ state.peerTasks, task.done = false →
          task.control.nodeName = state.nodeName) ↔
      ∀ move ∈ taken (Process.step path) (start F64 config) events,
        SpawnsUnderOwnName move.1 move.2) := by
  have hrun : (∀ move ∈ taken (Process.step path) (start F64 config) events,
      SpawnsUnderOwnName move.1 move.2) →
      ∀ state ∈ visited (Process.step path) (start F64 config) events,
        Named state ∧ SpawnedUnderOwnName state := fun hsafe =>
    forall_visited_of_taken (fun state => Named state ∧ SpawnedUnderOwnName state)
      SpawnsUnderOwnName hsafe ⟨⟨nofun, nofun⟩, nofun⟩
      fun state event next hinv hstep hevent =>
        ⟨named_step hinv.1 (processStep_of_step hstep),
          spawnedUnderOwnName_step hinv.2 (processStep_of_step hstep) hevent⟩
  refine ⟨fun hsafe state hmem => ?_, fun hsame move hmem => ?_,
    fun hsafe state hmem task htask _ => ?_⟩
  · obtain ⟨hnamed, hspawned⟩ := hrun hsafe state hmem
    exact oneIdentity_of_named hnamed hspawned
  · by_contra hbroken
    obtain ⟨next, hstep, hvisited⟩ := next_mem_visited_of_taken hmem
    obtain ⟨task, htask, hrunning, hother⟩ := exists_other_name hstep hbroken
    exact hother (hsame next hvisited task htask hrunning)
  · obtain ⟨i, hget⟩ := List.mem_iff_getElem?.mp htask
    exact (hrun hsafe state hmem).2 i task hget

end Runs

section Counterexample

/-- A config file for a node with these peers. -/
def nodeFile (name : String) (peers : List String) : String :=
  "[node]\nname = \"" ++ name ++ "\"\n" ++
  "[server]\nbind = \"[::]\"\nheartbeat_port = 9700\nmetrics_port = 9701\n" ++
  "probe_port = 9702\nheartbeat_recv_timeout = 90\nprobe_idle_timeout = 10\n" ++
  "[client]\n" ++
  String.join (peers.map fun peer =>
    "[[peers]]\nname = \"" ++ peer ++ "\"\nhost = \"" ++ peer ++ ".example\"\n")

/-- What the file says; the rest are defaults. -/
def nodeConfig (name : String) (peers : List String) : Config where
  node := ⟨name⟩
  server := ⟨"[::]", 9700, 9701, 9702, 90, 10⟩
  client := some ⟨30, 3, 10⟩
  peers := peers.map fun peer => ⟨peer, peer ++ ".example", 9700⟩

/-- The one address that the files bind. -/
local instance : SocketAddrParser where
  SocketAddr := String
  parse text := if text = "[::]:0" then .ok text else .error "invalid socket address syntax"

/-- The parser on these files. -/
local instance : TomlParser where
  fromStr text :=
    if text = nodeFile "n" ["a"] then .ok (nodeConfig "n" ["a"])
    else if text = nodeFile "m" ["a", "b"] then .ok (nodeConfig "m" ["a", "b"])
    else .error "TOML parse error"

local instance : UnicodeTables := asciiTables

/-- A reload renames the node and adds a peer; the peer that was there before
stays unchanged, so its task goes on. -/
def renamed : List (ProcessEvent WholeSeconds) :=
  [.outbound (.outside (.manage (.order []))), .outbound (.outside (.manage (.order ["a"]))),
    .outbound (.outside (.manage .go)), .outbound (.outside (.manage .go)),
    .outbound (.act 0 (⟨0, ⟨0⟩⟩, .ready)),
    .sighup (.ok (nodeFile "m" ["a", "b"])),
    .outbound (.outside (.manage .changed)), .outbound (.outside (.manage (.order ["a"]))),
    .outbound (.outside (.manage (.order ["a", "b"]))), .outbound (.outside (.manage .go)),
    .outbound (.outside (.manage .go)), .outbound (.outside (.manage .go)),
    .outbound (.act 1 (⟨0, ⟨0⟩⟩, .ready))]

/-- From accepted configs only, the manager ends up in its `select!` with
nothing unseen, and its two tasks use different names. -/
theorem two_node_identities :
    load "config.toml" (.ok (nodeFile "n" ["a"])) = .ok (nodeConfig "n" ["a"]) ∧
    ∃ state, run (Process.step "config.toml") (start WholeSeconds (nodeConfig "n" ["a"])) renamed =
        some state ∧
      state.manager.point = .parked ∧ state.manager.watch.unseen = false ∧
      ¬ OneIdentity state := by
  refine ⟨by decide +kernel, ?_⟩
  obtain ⟨state, hrun, hview⟩ := Option.map_eq_some_iff.mp (show
    (run (Process.step "config.toml") (start WholeSeconds (nodeConfig "n" ["a"])) renamed).map
        (fun state => (state.manager.point, state.manager.watch.unseen,
          state.peerTasks.map fun task => (task.done, task.pending.head?.map nodeOf))) =
      some (.parked, false, [(false, some "n"), (false, some "m")]) by decide +kernel)
  simp only [Prod.mk.injEq] at hview
  obtain ⟨hparked, hunseen, htasks⟩ := hview
  refine ⟨state, hrun, hparked, hunseen, ?_⟩
  rintro ⟨name, hpeers, -⟩
  have hname : ∀ node, (false, some node) ∈ [(false, some "n"), (false, some "m")] →
      node = name := by
    intro node hmem
    rw [← htasks] at hmem
    obtain ⟨task, htask, heq⟩ := List.mem_map.mp hmem
    obtain ⟨hrunning, hhead⟩ := Prod.mk.inj heq
    obtain ⟨update, hupdate, rfl⟩ := Option.map_eq_some_iff.mp hhead
    exact (hpeers task htask hrunning).2.updates update
      (List.mem_append_right _ (List.mem_of_head? hupdate))
  have hsame : "n" = "m" := (hname "n" (by simp)).trans (hname "m" (by simp)).symm
  exact absurd hsame (by decide)

end Counterexample

end TcpMonitor.NodeIdentity
