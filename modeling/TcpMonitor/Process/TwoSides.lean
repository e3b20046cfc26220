import TcpMonitor.Core.Simulation
import TcpMonitor.Client.SessionConservation
import TcpMonitor.Server.LabelGrowth
import TcpMonitor.SettingsInForce

/-!
# The process seen from its two sides

The outbound and the inbound side share the metrics.  Each side was studied
with the other one as a source of arbitrary updates of its own families.  Here
the process, in which both sides run, is seen from each of them: what the other
side does is one of these updates or nothing, a reload is a config that is sent
to the manager, and a store of `watch_config` a new timeout.  Every invariant of
one side is thus an invariant of the process.
-/

namespace TcpMonitor.TwoSides

open TcpMonitor.TransitionSystem
open TcpMonitor.TaskPool
open TcpMonitor.Simulation
open TcpMonitor.Runtime
open TcpMonitor.Configuration
open TcpMonitor.MetricFamilies
open TcpMonitor.Session
open TcpMonitor.SessionConservation
open TcpMonitor.ReconnectLoop
open TcpMonitor.PeerManager
open TcpMonitor.PeerPool hiding start program act_eq_some
open TcpMonitor.SessionPool hiding start program act_eq_some
open TcpMonitor.InboundSession
open TcpMonitor.Handshake
open TcpMonitor.WholeProcess
open TcpMonitor.WholeProcess.Process
open TcpMonitor.SettingsInForce
open TcpMonitor.LabelGrowth (reasonsOf)

/-! ## The updates of each side -/

section Updates

variable {F64 : Type}

/-- The label under which an update is made. -/
def labelOf : Update F64 → PeerLabel
  | .setGauge _ label _ | .setFloat _ label _ | .incCounter _ label => label
  | .incDisconnect _ label | .createDisconnect _ label => ⟨label.node, label.peer⟩

/-- The reason of a disconnect is one of those that its family lists. -/
def reasonListed : Update F64 → Bool
  | .incDisconnect family label | .createDisconnect family label =>
      label.reason ∈ reasonsOf family
  | .setGauge _ _ _ | .setFloat _ _ _ | .incCounter _ _ => true

/-- An update of the outbound side under a label. -/
def OutboundUnder (label : PeerLabel) (update : Update F64) : Prop :=
  isOutbound update = true ∧ labelOf update = label ∧ reasonListed update = true

/-- An update of the inbound side under a label. -/
def InboundUnder (label : PeerLabel) (update : Update F64) : Prop :=
  isInbound update = true ∧ labelOf update = label ∧ reasonListed update = true

variable {label : PeerLabel}

/-- The entries for disconnects are created by both sides. -/
theorem under_initDisconnectLabels :
    ∀ update ∈ initDisconnectLabels F64 label.node label.peer,
      OutboundUnder label update ∧ InboundUnder label update := by
  intro update hmem
  rcases List.mem_append.mp hmem with hserver | hclient
  · obtain ⟨reason, hreason, rfl⟩ := List.mem_map.mp hserver
    have hlisted := decide_eq_true hreason
    exact ⟨⟨rfl, rfl, hlisted⟩, rfl, rfl, hlisted⟩
  · obtain ⟨reason, hreason, rfl⟩ := List.mem_map.mp hclient
    have hlisted := decide_eq_true hreason
    exact ⟨⟨rfl, rfl, hlisted⟩, rfl, rfl, hlisted⟩

theorem outbound_recordSessionStart (startTs : F64) :
    ∀ update ∈ recordSessionStart label startTs, OutboundUnder label update := by
  simp [recordSessionStart, OutboundUnder, isOutbound, labelOf, reasonListed]

theorem outbound_recordEcho [WallClock F64] (startTs nowTs : F64) (sendTs : Option F64) :
    ∀ update ∈ recordEcho label startTs nowTs sendTs, OutboundUnder label update := by
  cases sendTs <;> simp [recordEcho, OutboundUnder, isOutbound, labelOf, reasonListed]

theorem outbound_recordMiss (missed : ℤ) :
    ∀ update ∈ (recordMiss label missed : List (Update F64)), OutboundUnder label update := by
  simp [recordMiss, OutboundUnder, isOutbound, labelOf, reasonListed]

theorem outbound_sessionEnd (duration : F64) {reason : String}
    (hreason : reason = "cancelled" ∨ reason ∈ clientDisconnectReasons) :
    ∀ update ∈ sessionEnd label duration reason, OutboundUnder label update := by
  rcases hreason with rfl | hlisted
  · simp [sessionEnd, OutboundUnder, isOutbound, labelOf, reasonListed]
  · by_cases hcancelled : reason = "cancelled" <;>
      simp [sessionEnd, hcancelled, OutboundUnder, isOutbound, labelOf, reasonListed, reasonsOf,
        hlisted]

theorem inbound_startUpdates (startTs : F64) :
    ∀ update ∈ startUpdates label startTs, InboundUnder label update := by
  refine List.forall_mem_append.mpr ⟨fun update hmem => ?_, ?_⟩
  · exact (under_initDisconnectLabels update hmem).2
  · simp [InboundUnder, isInbound, labelOf, reasonListed]

theorem inbound_heartbeatUpdates [WallClock F64] (startTs now : F64) :
    ∀ update ∈ heartbeatUpdates label startTs now, InboundUnder label update := by
  simp [heartbeatUpdates, InboundUnder, isInbound, labelOf, reasonListed]

theorem inbound_endUpdates (duration : F64) {reason : String}
    (hreason : reason ∈ serverDisconnectReasons) :
    ∀ update ∈ endUpdates label duration reason, InboundUnder label update := by
  simp [endUpdates, InboundUnder, isInbound, labelOf, reasonListed, reasonsOf, hreason]

end Updates

/-! ## The tasks of each side -/

section Tasks

variable {F64 : Type}

/-- A peer task makes only updates of the outbound side, under its own label. -/
structure OutboundTask (task : PeerLoopTask F64) : Prop where
  updates : ∀ update ∈ task.made ++ task.pending, OutboundUnder task.control.label update
  label : ∀ point vars, task.control.point = .session point → point.live = some vars →
    vars.label = task.control.label

/-- A connection makes only updates of the inbound side, under a label of the
node whose peer is registered. -/
def InboundTask (nodeName : String) (shared : ServerShared F64) (task : SessionTask F64) : Prop :=
  ∀ update ∈ task.made ++ task.pending, ∃ label : PeerLabel, label.node = nodeName ∧
    label.peer ∈ shared.metrics.serverPeers.seen ∧ InboundUnder label update

section Outbound

variable [WallClock F64] {clock : Reading F64} {completion : Completion}

theorem classifyIoError_mem (error : ErrorKind) :
    classifyIoError error ∈ clientDisconnectReasons := by
  cases error <;> decide

theorem sessionStep_outbound {nodeName peerName : String} {clientCfg : ClientConfig}
    {point : SessionPoint F64} {after : SessionPoint F64 × List (Update F64)}
    (hstep : SessionStep nodeName peerName clientCfg point clock completion after)
    (hown : ∀ vars, point.live = some vars → vars.label = ⟨nodeName, peerName⟩) :
    ∀ update ∈ after.2, OutboundUnder ⟨nodeName, peerName⟩ update := by
  have hend : ∀ vars reason, point.live = some vars →
      reason = "cancelled" ∨ reason ∈ clientDisconnectReasons →
        ∀ update ∈ (breakSession vars clock reason).2,
          OutboundUnder ⟨nodeName, peerName⟩ update := by
    intro vars reason hlive hreason
    rw [← hown vars hlive]
    exact outbound_sessionEnd _ hreason
  cases hstep with
  | handshakePart | handshakeError | sleep | due | wake | sendPart | readPart =>
      exact List.forall_mem_nil _
  | established => exact outbound_recordSessionStart _
  | sent =>
      rw [← hown _ rfl]
      exact List.forall_mem_singleton.mpr ⟨rfl, rfl, rfl⟩
  | writeError | readError => exact hend _ _ rfl (Or.inr (classifyIoError_mem _))
  | cancelled hpoint =>
      exact hend _ _ (SessionPoint.live_of_interruptible hpoint) (Or.inl rfl)
  | @deadline vars sentSeq sendTs deadline gotEcho clock hdue =>
      have hlabel := hown vars rfl
      rcases endWait_cases clientCfg vars gotEcho clock with
        ⟨-, heq⟩ | ⟨-, -, heq⟩ | ⟨-, -, heq⟩
      · rw [heq]
        exact List.forall_mem_nil _
      · rw [heq, ← hlabel]
        exact outbound_recordMiss _
      · rw [heq]
        refine List.forall_mem_append.mpr ⟨?_, hend vars "timeout" rfl (Or.inr (by decide))⟩
        rw [← hlabel]
        exact outbound_recordMiss _
  | @echo vars sentSeq sendTs deadline gotEcho clock outcome echoes echo hread =>
      have hlabel := hown vars rfl
      rcases readEcho_cases { vars with echoes := echoes } sentSeq sendTs deadline clock echo with
        ⟨-, heq⟩ | ⟨-, heq⟩
      · rw [heq, ← hlabel]
        exact outbound_recordEcho vars.startTs clock.wall (some sendTs)
      · rw [heq, ← hlabel]
        exact outbound_recordEcho vars.startTs clock.wall none

theorem loopStep_outbound {loop : PeerLoop F64} {after : PeerLoop F64 × List (Update F64)}
    (hstep : LoopStep loop clock completion after)
    (hown : ∀ point vars, loop.point = .session point → point.live = some vars →
      vars.label = loop.label) :
    ∀ update ∈ after.2, OutboundUnder loop.label update := by
  cases hstep with
  | begin => exact fun update hmem => (under_initDisconnectLabels update hmem).1
  | connected | retry | cancelled => exact List.forall_mem_nil _
  | connectFailed =>
      have hreason : "connect_failed" ∈ clientDisconnectReasons := by decide
      exact List.forall_mem_singleton.mpr ⟨rfl, rfl, decide_eq_true hreason⟩
  | session hpoint hsession | sessionEnded hpoint hsession =>
      exact sessionStep_outbound hsession fun vars hlive => hown _ vars hpoint hlive

theorem outboundTask_invariant (F64 : Type) [WallClock F64] :
    TaskInvariant (PeerPool.program F64) fun _ (task : PeerLoopTask F64) => OutboundTask task where
  stable hstep task htask := htask
  spawn houtside loop hmem := by
    obtain ⟨-, name, peer, settings, peers, -, -, -, rfl⟩ := mem_spawned houtside hmem
    exact ⟨List.forall_mem_nil _, nofun⟩
  flush htask := by
    obtain ⟨hupdates, hlabel⟩ := htask
    refine ⟨?_, hlabel⟩
    rwa [List.append_assoc]
  act htask hact := by
    obtain ⟨hmade, hlabel⟩ := htask
    obtain ⟨-, hloop, -⟩ := PeerPool.act_eq_some hact
    rw [List.append_nil] at hmade
    refine ⟨?_, loopStep_own hloop hlabel⟩
    dsimp only
    rw [hloop.arguments_eq.2]
    exact List.forall_mem_append.mpr ⟨hmade, loopStep_outbound hloop hlabel⟩

end Outbound

variable [UnicodeTables] [WallClock F64] {nodeName : String} {shared : ServerShared F64}

omit [UnicodeTables] in
theorem inboundTask_of_inProgram {task : SessionTask F64}
    (htask : InProgram nodeName shared task) : InboundTask nodeName shared task := by
  intro update hmem
  obtain ⟨label, ⟨hnode, hseen⟩, hupdate⟩ := htask.update_cases hmem
  refine ⟨label, hnode, hseen, ?_⟩
  rcases hupdate with ⟨startTs, hstart⟩ | ⟨startTs, now, hbeat⟩ | ⟨duration, reason, hreason, hend⟩
  · exact inbound_startUpdates startTs update hstart
  · exact inbound_heartbeatUpdates startTs now update hbeat
  · exact inbound_endUpdates duration hreason update hend

end Tasks

/-! ## What one side sees of the other -/

section Views

variable {F64 : Type}

/-- The metrics without the set of inbound peers, which the outbound side never
looks at. -/
def withoutPeers (metrics : Metrics F64) : Metrics F64 :=
  { metrics with serverPeers := ServerPeers.empty }

theorem withoutPeers_apply (update : Update F64) (metrics : Metrics F64) :
    withoutPeers (update.apply metrics) = update.apply (withoutPeers metrics) := by
  cases update <;> rfl

def hidePeers (pool : Peers F64) : Peers F64 :=
  ⟨{ pool.shared with metrics := withoutPeers pool.shared.metrics }, pool.tasks⟩

/-- The outbound side of the process. -/
def outboundView (state : Process F64) : Peers F64 := hidePeers state.outbound

variable [WallClock F64]

/-- The outbound side makes the same steps whether or not it sees the set of
inbound peers. -/
theorem step_hidePeers {pool next : Peers F64} {move : ClientMove F64}
    (hstep : TaskPool.step (PeerPool.program F64) pool move = some next) :
    TaskPool.step (PeerPool.program F64) (hidePeers pool) move = some (hidePeers next) := by
  cases move with
  | flush index =>
      obtain ⟨control, update, rest, made, hget, rfl⟩ := step_flush_eq_some.mp hstep
      refine step_flush_eq_some.mpr ⟨control, update, rest, made, hget, ?_⟩
      simp only [hidePeers, PeerPool.program, withoutPeers_apply]
  | act index input =>
      obtain ⟨control, made, shared, control', updates, hget, hact, rfl⟩ :=
        step_act_eq_some.mp hstep
      obtain ⟨rfl, -, hallowed⟩ := PeerPool.act_eq_some hact
      have hrun := act_runPeerLoop hact
      refine step_act_eq_some.mpr ⟨control, made, _, control', updates, hget, ?_, rfl⟩
      have hnot : ¬(input.2 = .cancelled ∧ index ∉ pool.shared.cancelled) :=
        fun hrefused => hrefused.2 (hallowed hrefused.1)
      simp only [PeerPool.program, hidePeers, if_neg hnot, hrun, Option.map_some]
  | outside event =>
      obtain ⟨shared, spawned, houtside, rfl⟩ := step_outside_eq_some.mp hstep
      refine step_outside_eq_some.mpr
        ⟨{ shared with metrics := withoutPeers shared.metrics }, spawned, ?_, rfl⟩
      cases event with
      | manage input =>
          obtain ⟨⟨manager, effect⟩, hrun, heq⟩ := Option.map_eq_some_iff.mp houtside
          refine Option.map_eq_some_iff.mpr ⟨(manager, effect), hrun, ?_⟩
          cases effect <;> cases heq <;> rfl
      | send config =>
          simp only [PeerPool.program] at houtside ⊢
          split at houtside
          · cases houtside
          · next hopen =>
              cases houtside
              exact if_neg hopen
      | closeSenders | cancelManager =>
          cases houtside
          rfl
      | inbound update =>
          obtain ⟨hinbound, heq⟩ := Option.ite_none_right_eq_some.mp houtside
          cases heq
          simp only [PeerPool.program, hidePeers, hinbound, if_true, withoutPeers_apply]

end Views

/-! ## Steps of the process -/

section Steps

variable {F64 : Type} [UnicodeTables] [WallClock F64]

omit [UnicodeTables] in
/-- In its own steps the outbound side makes at most one update, which one of its
tasks had to make. -/
theorem outbound_metrics {pool next : Peers F64} {move : ClientMove F64}
    (hown : ownOutbound move = true)
    (hstep : TaskPool.step (PeerPool.program F64) pool move = some next) :
    next.shared.metrics = pool.shared.metrics ∨
      ∃ task ∈ pool.tasks, ∃ update ∈ task.pending,
        next.shared.metrics = update.apply pool.shared.metrics := by
  cases move with
  | flush index =>
      obtain ⟨control, update, rest, made, hget, rfl⟩ := step_flush_eq_some.mp hstep
      exact Or.inr ⟨_, List.mem_of_getElem? hget, update, List.mem_cons_self, rfl⟩
  | act index input =>
      obtain ⟨control, made, shared, control', updates, -, hact, rfl⟩ :=
        step_act_eq_some.mp hstep
      obtain ⟨rfl, -, -⟩ := PeerPool.act_eq_some hact
      exact Or.inl rfl
  | outside event =>
      obtain ⟨shared, spawned, houtside, rfl⟩ := step_outside_eq_some.mp hstep
      cases event with
      | manage input =>
          obtain ⟨⟨manager, effect⟩, -, heq⟩ := Option.map_eq_some_iff.mp houtside
          cases effect <;> cases heq <;> exact Or.inl rfl
      | send | closeSenders | cancelManager | inbound => cases hown

/-- In its own steps the inbound side makes at most one update, which one of its
connections had to make, or registers a peer. -/
theorem inbound_metrics {nodeName : String} {pool next : Sessions F64}
    {move : Move (Reading F64 × Completion) (ServerEvent F64)} (hown : ownInbound move = true)
    (hstep : TaskPool.step (SessionPool.program nodeName) pool move = some next) :
    withoutPeers next.shared.metrics = withoutPeers pool.shared.metrics ∨
      ∃ task ∈ pool.tasks, ∃ update ∈ task.pending,
        next.shared.metrics = update.apply pool.shared.metrics := by
  cases move with
  | flush index =>
      obtain ⟨control, update, rest, made, hget, rfl⟩ := step_flush_eq_some.mp hstep
      exact Or.inr ⟨_, List.mem_of_getElem? hget, update, List.mem_cons_self, rfl⟩
  | act index input =>
      obtain ⟨control, made, shared, control', updates, -, hact, rfl⟩ :=
        step_act_eq_some.mp hstep
      obtain ⟨peers, -, rfl⟩ := SessionPool.act_eq_some hact
      exact Or.inl rfl
  | outside event =>
      obtain ⟨shared, spawned, houtside, rfl⟩ := step_outside_eq_some.mp hstep
      cases event with
      | accept =>
          simp only [SessionPool.program] at houtside
          split at houtside <;> cases houtside <;> exact Or.inl rfl
      | storeTimeout | outbound => cases hown

/-- What the two views rest on: the name that the accept loop holds, the updates
that the tasks of each side make, and that the channel is open while the SIGHUP
handler runs. -/
structure Sided (nodeName : String) (state : Process F64) : Prop where
  name : state.nodeName = nodeName
  peerTasks : ∀ task ∈ state.peerTasks, OutboundTask task
  sessions : ∀ task ∈ state.sessions, InProgram nodeName state.inbound.shared task
  sender : state.manager.watch.closed = true → state.handlingSighup = false

variable {state next : Process F64} {nodeName path : String}

omit [UnicodeTables] in
theorem sided_start (config : Config) : Sided config.node.name (start F64 config) where
  name := rfl
  peerTasks := nofun
  sessions := nofun
  sender := nofun

omit [UnicodeTables] in
/-- An update of the process keeps the set of inbound peers. -/
theorem serverPeers_of_outbound {pool next : Peers F64} {move : ClientMove F64}
    (hown : ownOutbound move = true)
    (hstep : TaskPool.step (PeerPool.program F64) pool move = some next) :
    next.shared.metrics.serverPeers = pool.shared.metrics.serverPeers := by
  rcases outbound_metrics hown hstep with hsame | ⟨-, -, update, -, happly⟩
  · rw [hsame]
  · rw [happly, Update.serverPeers_apply]

omit [UnicodeTables] in
theorem Sided.outbound (hsided : Sided nodeName state) {move : ClientMove F64} {pool : Peers F64}
    (hown : ownOutbound move = true)
    (hstep : TaskPool.step (PeerPool.program F64) state.outbound move = some pool) :
    Sided nodeName (state.setOutbound pool) where
  name := hsided.name
  peerTasks := (outboundTask_invariant F64).step hsided.peerTasks hstep
  sessions task hmem :=
    (hsided.sessions task hmem).mono (serverPeers_of_outbound hown hstep ▸ Finset.Subset.refl _)
  sender := by
    intro hclosed
    rw [setOutbound, (outbound_settings hown hstep).closed] at hclosed
    exact hsided.sender hclosed

theorem Sided.inbound (hsided : Sided nodeName state)
    {move : Move (Reading F64 × Completion) (ServerEvent F64)} {pool : Sessions F64}
    (hstep : TaskPool.step (SessionPool.program nodeName) state.inbound move = some pool) :
    Sided nodeName (state.setInbound pool) where
  name := hsided.name
  peerTasks := hsided.peerTasks
  sessions := (inProgram_invariant nodeName).step hsided.sessions hstep
  sender := hsided.sender

omit [UnicodeTables] in
/-- A step that changes neither a task nor the metrics. -/
theorem Sided.around (hsided : Sided nodeName state) (hframe : Frame state next)
    (hsender : next.manager.watch.closed = true → next.handlingSighup = false) :
    Sided nodeName next where
  name := hframe.nodeName.trans hsided.name
  peerTasks := hframe.peerTasks ▸ hsided.peerTasks
  sessions := by
    intro task hmem
    rw [hframe.sessions] at hmem
    refine (hsided.sessions task hmem).mono ?_
    rw [Process.inbound, Process.inbound, hframe.metrics]
  sender := hsender

variable [SocketAddrParser] [TomlParser]

omit [UnicodeTables] [WallClock F64] in
theorem sender_watchSighup
    (hsender : state.manager.watch.closed = true → state.handlingSighup = false)
    (contents : Except String String) :
    (state.watchSighup path contents).manager.watch.closed = true →
      (state.watchSighup path contents).handlingSighup = false := by
  rw [watchSighup]
  split
  · exact hsender
  · dsimp only
    split
    · exact hsender
    · exact fun _ => rfl

theorem sided_step {event : ProcessEvent F64} (hsided : Sided nodeName state)
    (hstep : Process.step path state event = some next) : Sided nodeName next := by
  obtain rfl := hsided.name
  cases event with
  | outbound move =>
      obtain ⟨hown, pool, hpool, rfl⟩ := step_outbound hstep
      exact hsided.outbound hown hpool
  | inbound move =>
      obtain ⟨-, pool, hpool, rfl⟩ := step_inbound hstep
      exact hsided.inbound hpool
  | acceptProbe =>
      simp only [Process.step] at hstep
      split at hstep <;> cases hstep
      · exact ⟨rfl, hsided.peerTasks, hsided.sessions, hsided.sender⟩
      · exact hsided
  | probe index input =>
      obtain ⟨probe, probe', -, -, rfl⟩ := step_probe_eq_some.mp hstep
      exact ⟨rfl, hsided.peerTasks, hsided.sessions, hsided.sender⟩
  | sighup contents =>
      obtain ⟨-, heq⟩ := Option.ite_none_right_eq_some.mp hstep
      cases heq
      exact hsided.around (frame_watchSighup contents).1
        (sender_watchSighup hsided.sender contents)
  | watch input =>
      have hwatch := watcherStep_of_watchConfig hstep
      refine hsided.around hwatch.frame ?_
      cases hwatch <;> exact hsided.sender
  | sighupEnds =>
      cases hstep
      exact hsided.around ⟨rfl, rfl, rfl, rfl, rfl, rfl, rfl, rfl⟩ fun _ => rfl
  | shutdown =>
      cases hstep
      exact hsided.around ⟨rfl, rfl, rfl, rfl, rfl, rfl, rfl, rfl⟩ hsided.sender
  | closeChannel =>
      obtain ⟨⟨-, hended⟩, heq⟩ := Option.ite_none_right_eq_some.mp hstep
      cases heq
      exact hsided.around ⟨rfl, rfl, rfl, rfl, rfl, rfl, rfl, rfl⟩ fun _ => hended

/-- What the outbound side sees of a step of the process: its own steps, the
updates of the inbound side, and what the manager listens to. -/
def outboundMove (path : String) (state : Process F64) : ProcessEvent F64 → Option (ClientMove F64)
  | .outbound move => some move
  | .inbound (.flush index) =>
      match state.sessions[index]? with
      | some ⟨_, update :: _, _⟩ => some (.outside (.inbound update))
      | _ => none
  | .sighup contents =>
      match load path contents with
      | .ok config => if state.received then some (.outside (.send config)) else none
      | .error _ => none
  | .shutdown => some (.outside .cancelManager)
  | .closeChannel => some (.outside .closeSenders)
  | .inbound _ | .acceptProbe | .probe _ _ | .sighupEnds | .watch _ => none

omit [SocketAddrParser] [TomlParser] in
/-- Of the inbound side only the updates are seen. -/
theorem seenAs_inbound (hsided : Sided nodeName state)
    {move : Move (Reading F64 × Completion) (ServerEvent F64)} {pool : Sessions F64}
    (hown : ownInbound move = true)
    (hstep : TaskPool.step (SessionPool.program nodeName) state.inbound move = some pool) :
    (∃ index control update rest made, move = .flush index ∧
        state.sessions[index]? = some ⟨control, update :: rest, made⟩ ∧
        TaskPool.step (PeerPool.program F64) (outboundView state) (.outside (.inbound update)) =
          some (outboundView (state.setInbound pool))) ∨
      (∀ index, move ≠ .flush index) ∧
        outboundView (state.setInbound pool) = outboundView state := by
  cases move with
  | flush index =>
      obtain ⟨control, update, rest, made, hget, rfl⟩ := step_flush_eq_some.mp hstep
      obtain ⟨label, -, -, hinbound, -⟩ := inboundTask_of_inProgram
        (hsided.sessions _ (List.mem_of_getElem? hget)) update
        (List.mem_append_right _ List.mem_cons_self)
      refine Or.inl ⟨index, control, update, rest, made, rfl, hget, ?_⟩
      simp [TaskPool.step, PeerPool.program, SessionPool.program, outboundView, hidePeers,
        Process.outbound, setInbound, hinbound, withoutPeers_apply, Process.inbound]
  | act index input =>
      obtain ⟨control, made, shared, control', updates, -, hact, rfl⟩ :=
        step_act_eq_some.mp hstep
      obtain ⟨peers, -, rfl⟩ := SessionPool.act_eq_some hact
      exact Or.inr ⟨by simp, rfl⟩
  | outside event =>
      obtain ⟨shared, spawned, houtside, rfl⟩ := step_outside_eq_some.mp hstep
      cases event with
      | accept =>
          simp only [SessionPool.program] at houtside
          split at houtside <;> cases houtside <;> exact Or.inr ⟨by simp, rfl⟩
      | storeTimeout | outbound => cases hown

omit [UnicodeTables] in
/-- A reload is a config that is sent to the manager, or nothing. -/
theorem seenAs_watchSighup (hsided : Sided nodeName state) (hhandling : state.handlingSighup = true)
    (contents : Except String String) :
    SeenAs (TaskPool.step (PeerPool.program F64)) (outboundView state)
      (outboundView (state.watchSighup path contents))
      (outboundMove path state (.sighup contents)) := by
  have hopen : state.manager.watch.closed = false := by
    cases hclosed : state.manager.watch.closed with
    | false => rfl
    | true => exact absurd (hsided.sender hclosed) (by simp [hhandling])
  rw [watchSighup, outboundMove]
  cases load path contents with
  | error => exact rfl
  | ok config =>
      dsimp only
      have hreceived : ({ state with loaded := state.loaded ++ [config] } : Process F64).received =
          state.received := rfl
      rw [hreceived]
      cases state.received with
      | false => exact rfl
      | true =>
          simp [SeenAs, TaskPool.step, PeerPool.program, outboundView, hidePeers,
            Process.outbound, publish, hopen]

/-- The outbound side sees a step of the process as one of its own or not at
all. -/
theorem outbound_seenAs {event : ProcessEvent F64} (hsided : Sided nodeName state)
    (hstep : Process.step path state event = some next) :
    SeenAs (TaskPool.step (PeerPool.program F64)) (outboundView state) (outboundView next)
      (outboundMove path state event) := by
  obtain rfl := hsided.name
  cases event with
  | outbound move =>
      obtain ⟨-, pool, hpool, rfl⟩ := step_outbound hstep
      exact step_hidePeers hpool
  | inbound move =>
      obtain ⟨hown, pool, hpool, rfl⟩ := step_inbound hstep
      rcases seenAs_inbound hsided hown hpool with
        ⟨index, control, update, rest, made, rfl, hget, hupdate⟩ | ⟨hother, hsame⟩
      · simp only [outboundMove, hget]
        exact hupdate
      · cases move with
        | flush index => exact absurd rfl (hother index)
        | act | outside => exact hsame
  | acceptProbe =>
      simp only [Process.step] at hstep
      split at hstep <;> cases hstep <;> exact rfl
  | probe index input =>
      obtain ⟨probe, probe', -, -, rfl⟩ := step_probe_eq_some.mp hstep
      exact rfl
  | sighup contents =>
      obtain ⟨hhandling, heq⟩ := Option.ite_none_right_eq_some.mp hstep
      cases heq
      exact seenAs_watchSighup hsided hhandling contents
  | watch input => cases watcherStep_of_watchConfig hstep <;> exact rfl
  | sighupEnds =>
      cases hstep
      exact rfl
  | shutdown =>
      cases hstep
      simp [SeenAs, outboundMove, TaskPool.step, PeerPool.program, outboundView, hidePeers,
        Process.outbound]
  | closeChannel =>
      obtain ⟨-, heq⟩ := Option.ite_none_right_eq_some.mp hstep
      cases heq
      simp [SeenAs, outboundMove, TaskPool.step, PeerPool.program, outboundView, hidePeers,
        Process.outbound]

/-- The inbound side sees a step of the process as one of its own or not at all. -/
theorem inbound_follows {event : ProcessEvent F64} (hsided : Sided nodeName state)
    (hstep : Process.step path state event = some next) :
    next.inbound = state.inbound ∨
      ∃ move, TaskPool.step (SessionPool.program nodeName) state.inbound move =
        some next.inbound := by
  obtain rfl := hsided.name
  cases event with
  | outbound move =>
      obtain ⟨hown, pool, hpool, rfl⟩ := step_outbound hstep
      rcases outbound_metrics hown hpool with hsame | ⟨task, htask, update, hupdate, happly⟩
      · refine Or.inl ?_
        simp only [Process.inbound, setOutbound, hsame]
        rfl
      · have houtbound := ((hsided.peerTasks task htask).updates update
          (List.mem_append_right _ hupdate)).1
        refine Or.inr ⟨.outside (.outbound update), ?_⟩
        simp [TaskPool.step, SessionPool.program, Process.inbound, setOutbound, houtbound, happly,
          Process.outbound]
  | inbound move =>
      obtain ⟨-, pool, hpool, rfl⟩ := step_inbound hstep
      exact Or.inr ⟨move, hpool⟩
  | acceptProbe =>
      simp only [Process.step] at hstep
      split at hstep <;> cases hstep <;> exact Or.inl rfl
  | probe index input =>
      obtain ⟨probe, probe', -, -, rfl⟩ := step_probe_eq_some.mp hstep
      exact Or.inl rfl
  | sighup contents =>
      obtain ⟨-, heq⟩ := Option.ite_none_right_eq_some.mp hstep
      cases heq
      obtain ⟨hframe, hrecv, -⟩ : Frame state (state.watchSighup path contents) ∧ _ :=
        frame_watchSighup contents
      refine Or.inl ?_
      simp only [Process.inbound, hframe.metrics, hframe.sessions, hrecv]
  | watch input =>
      cases watcherStep_of_watchConfig hstep with
      | receive | ended | cancelled | storeIdle => exact Or.inl rfl
      | @storeRecv srv =>
          exact Or.inr ⟨.outside (.storeTimeout srv.heartbeatRecvTimeout), by
            simp [TaskPool.step, SessionPool.program, Process.inbound]⟩
  | sighupEnds | shutdown =>
      cases hstep
      exact Or.inl rfl
  | closeChannel =>
      obtain ⟨-, heq⟩ := Option.ite_none_right_eq_some.mp hstep
      cases heq
      exact Or.inl rfl

/-- The two views of the process. -/
theorem follows_outbound (F64 : Type) [WallClock F64] (nodeName path : String) :
    Follows (Process.step path) (TaskPool.step (PeerPool.program F64)) (Sided nodeName)
      outboundView where
  keeps := sided_step
  follows hsided hstep := (outbound_seenAs hsided hstep).follows

theorem follows_inbound (F64 : Type) [WallClock F64] (nodeName path : String) :
    Follows (Process.step path) (TaskPool.step (SessionPool.program nodeName)) (Sided nodeName)
      (Process.inbound : Process F64 → Sessions F64) where
  keeps := sided_step
  follows := inbound_follows

/-- Every reachable state of the process is a reachable state of each side alone,
for any order in which tasks, reloads, the shutdown and the other side step. -/
theorem process_refines_both_sides {config : Config}
    (hreach : Reachable (Process.step path) (start F64 config) state) :
    Reachable (TaskPool.step (PeerPool.program F64)) (PeerPool.start F64 config)
        (outboundView state) ∧
      Reachable (TaskPool.step (SessionPool.program config.node.name))
        (SessionPool.start F64 config.server.heartbeatRecvTimeout) state.inbound :=
  ⟨(follows_outbound F64 config.node.name path).reachable (sided_start config) hreach,
    (follows_inbound F64 config.node.name path).reachable (sided_start config) hreach⟩

theorem sided_of_reachable {config : Config}
    (hreach : Reachable (Process.step path) (start F64 config) state) :
    Sided config.node.name state :=
  (follows_outbound F64 config.node.name path).invariant (sided_start config) hreach

end Steps

section Witness

/-- The one address that the config files of the concrete runs bind. -/
@[reducible]
def anyAddress : SocketAddrParser where
  SocketAddr := String
  parse text := if text = "[::]:0" then .ok text else .error "invalid socket address syntax"

/-- The parser on the config files of the concrete runs. -/
@[reducible]
def configFiles : TomlParser where
  fromStr text :=
    if text = configFile "30" then .ok (configured 30)
    else if text = configFile "60" then .ok (configured 60)
    else .error "TOML parse error"

local instance : SocketAddrParser := anyAddress

local instance : TomlParser := configFiles

local instance : UnicodeTables := asciiTables

/-- Both sides follow a run in which a peer task and two sessions are spawned and
three reloads arrive. -/
theorem process_refines_both_sides_reloads :
    ∃ state, run (Process.step "config.toml") (start WholeSeconds (configured 30)) reloads =
        some state ∧
      (state.peerTasks.length = 1 ∧ state.sessions.length = 2) ∧
      Reachable (TaskPool.step (PeerPool.program WholeSeconds))
        (PeerPool.start WholeSeconds (configured 30)) (outboundView state) ∧
      Reachable (TaskPool.step (SessionPool.program "n")) (SessionPool.start WholeSeconds 30)
        state.inbound := by
  obtain ⟨state, hrun, hview⟩ := Option.map_eq_some_iff.mp (show
    (run (Process.step "config.toml") (start WholeSeconds (configured 30)) reloads).map
        (fun state => (state.peerTasks.length, state.sessions.length)) = some (1, 2) by
      decide +kernel)
  exact ⟨state, hrun, Prod.mk.inj hview, process_refines_both_sides (Reachable.of_run hrun)⟩

end Witness

end TcpMonitor.TwoSides
