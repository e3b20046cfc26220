import TcpMonitor.Core.SharedRegister
import TcpMonitor.SessionBooks
import TcpMonitor.Client.Reconciliation

/-!
# The books of outbound sessions

What a peer task has entered into the books is the text of the sessions it has
been through: those that have ended, one after another, and the opening of the
one that is running.  The manager spawns the next task of a peer only after the
last one has finished, so of all tasks with one label at most one has a session
that is live, and no other task writes its gauge.
-/

namespace TcpMonitor.SessionConservation

open TcpMonitor.TransitionSystem
open TcpMonitor.TaskPool
open TcpMonitor.SharedRegister
open TcpMonitor.Runtime
open TcpMonitor.Configuration
open TcpMonitor.MetricFamilies
open TcpMonitor.SessionBooks
open TcpMonitor.Session
open TcpMonitor.ReconnectLoop
open TcpMonitor.PeerManager
open TcpMonitor.PeerPool
open TcpMonitor.Reconciliation

section Books

variable {F64 : Type}

/-- What an update enters into the books of a label. -/
abbrev clientEntry (label : PeerLabel) : Update F64 → Option Entry :=
  entry clientBooks label

/-- The session of the task has started and is still in its loop. -/
def inSession (loop : PeerLoop F64) : Bool :=
  match loop.point with
  | .session point => point.live.isSome
  | .spawned | .connecting | .reconnecting _ | .returned => false

/-- The task has set the gauge of its session to 1 and has yet to set it
to 0. -/
def Live (label : PeerLabel) (task : PeerLoopTask F64) : Prop :=
  task.control.label = label ∧
    if inSession task.control then .active 1 ∉ task.pending.filterMap (clientEntry label)
    else .active 0 ∈ task.pending.filterMap (clientEntry label)

instance {label : PeerLabel} {task : PeerLoopTask F64} : Decidable (Live label task) := by
  unfold Live
  infer_instance

/-- The task has updates of the start or the end of a session left to make. -/
def PartWay (label : PeerLabel) (task : PeerLoopTask F64) : Prop :=
  task.pending.filterMap (clientEntry label) ≠ []

/-- How many sessions of the task have ended by cancellation. -/
def cancelledSessions (label : PeerLabel) (task : PeerLoopTask F64) : ℕ :=
  if task.control.label = label then task.control.ended.count "cancelled" else 0

/-! ## The text of a task's sessions -/

/-- What the start of a session enters. -/
def opening : List Entry := [.active 1, .counted]

/-- What the end of a session enters. -/
def closing (reason : String) : List Entry :=
  .active 0 :: if reason = "cancelled" then [] else [.disconnected reason]

/-- What sessions that have ended with these reasons have entered. -/
def sessionTexts (ended : List String) : List Entry :=
  ended.flatMap fun reason => opening ++ closing reason

/-- What the task enters into the books of a label. -/
def underLabel (label : PeerLabel) (loop : PeerLoop F64) (text : List Entry) : List Entry :=
  if loop.label = label then text else []

/-- What the sessions of the task enter up to its point. -/
def history (loop : PeerLoop F64) : List Entry :=
  sessionTexts loop.ended ++ if inSession loop then opening else []

/-- The last part of the history, which may still be pending. -/
def latest (loop : PeerLoop F64) : List Entry :=
  if inSession loop then opening
  else match loop.ended.getLast? with
    | none => []
    | some reason => closing reason

/-- The reasons with which a session can end. -/
def EndReason (reason : String) : Prop :=
  reason = "cancelled" ∨ reason ∈ clientBooks.reasons

/-- A task has entered the text of its sessions, up to what it has pending. -/
structure Booked (label : PeerLabel) (task : PeerLoopTask F64) : Prop where
  own : ∀ point vars, task.control.point = .session point → point.live = some vars →
    vars.label = task.control.label
  entries : (task.made ++ task.pending).filterMap (clientEntry label) =
    underLabel label task.control (history task.control)
  pending : task.pending.filterMap (clientEntry label) <:+
    underLabel label task.control (latest task.control)
  reasons : ∀ reason ∈ task.control.ended, EndReason reason

theorem sessionTexts_concat (ended : List String) (reason : String) :
    sessionTexts (ended ++ [reason]) = sessionTexts ended ++ (opening ++ closing reason) := by
  simp [sessionTexts]

/-! ## What one step enters -/

section Entries

variable {label own : PeerLabel}

theorem entries_recordSessionStart (startTs : F64) :
    (recordSessionStart own startTs).filterMap (clientEntry label) =
      if own = label then opening else [] := by
  by_cases hlabel : own = label <;>
    simp [recordSessionStart, entry, clientBooks, opening, hlabel]

theorem entries_sessionEnd {reason : String} (hreason : EndReason reason) (duration : F64) :
    (sessionEnd own duration reason).filterMap (clientEntry label) =
      if own = label then closing reason else [] := by
  obtain ⟨node, peer⟩ := own
  obtain ⟨node', peer'⟩ := label
  by_cases hcancelled : reason = "cancelled"
  · by_cases hlabel : node = node' ∧ peer = peer' <;>
      simp [sessionEnd, entry, clientBooks, closing, hcancelled, hlabel]
  · have hlisted := hreason.resolve_left hcancelled
    simp only [clientBooks] at hlisted
    by_cases hlabel : node = node' ∧ peer = peer' <;>
      simp [sessionEnd, entry, clientBooks, closing, hcancelled, hlabel,
        hlisted]

theorem entries_recordMiss (missed : ℤ) :
    (recordMiss own missed : List (Update F64)).filterMap (clientEntry label) = [] := by
  simp [recordMiss, entry, clientBooks]

theorem entries_recordEcho [WallClock F64] (startTs nowTs : F64) (sendTs : Option F64) :
    (recordEcho own startTs nowTs sendTs).filterMap (clientEntry label) = [] := by
  cases sendTs <;> simp [recordEcho, entry, clientBooks]

theorem entries_initDisconnectLabels (nodeName peerName : String) :
    (initDisconnectLabels F64 nodeName peerName).filterMap (clientEntry label) = [] := by
  simp [initDisconnectLabels, entry]

theorem entries_connectFailed (nodeName peerName : String) :
    [(.incDisconnect .clientDisconnects ⟨nodeName, peerName, "connect_failed"⟩ :
      Update F64)].filterMap (clientEntry label) = [] := by
  simp [entry, clientBooks]

end Entries

section Step

variable [WallClock F64] {label : PeerLabel} {nodeName peerName : String}
variable {clientCfg : ClientConfig} {point : SessionPoint F64} {clock : Reading F64}
variable {completion : Completion} {after : SessionPoint F64 × List (Update F64)}

theorem entries_breakSession {vars : SessionVars F64} {reason : String}
    (hreason : EndReason reason) :
    (breakSession vars clock reason).2.filterMap (clientEntry label) =
      if vars.label = label then closing reason else [] :=
  entries_sessionEnd hreason _

/-- A step of a session inside its loop or before it enters nothing; the step
into the loop enters the opening, and the step that leaves it the closing. -/
theorem sessionStep_entries
    (hstep : SessionStep nodeName peerName clientCfg point clock completion after)
    (hown : ∀ vars, point.live = some vars → vars.label = ⟨nodeName, peerName⟩) :
    (after.1.live.isSome = point.live.isSome ∧ after.2.filterMap (clientEntry label) = []) ∨
      (point.live.isSome = false ∧ after.1.live.isSome = true ∧
        after.2.filterMap (clientEntry label) =
          if ⟨nodeName, peerName⟩ = label then opening else []) ∨
      ∃ reason, point.live.isSome = true ∧ EndReason reason ∧ after.1 = .returned reason ∧
        after.2.filterMap (clientEntry label) =
          if ⟨nodeName, peerName⟩ = label then closing reason else [] := by
  have hreturns : ∀ reason, after.1 = .returned reason → EndReason reason := by
    intro reason hreturned
    rcases hstep.reason_cases hreturned with ⟨-, hcancelled⟩ | hlisted
    · exact Or.inl hcancelled
    · exact Or.inr hlisted
  cases hstep with
  | handshakePart | handshakeError | sleep | due | wake | sendPart | readPart =>
      exact Or.inl ⟨by simp only [startRound, SessionPoint.live, Option.isSome_some], rfl⟩
  | established => exact Or.inr (Or.inl ⟨rfl, rfl, entries_recordSessionStart _⟩)
  | sent =>
      exact Or.inl ⟨by simp only [SessionPoint.live, Option.isSome_some],
        by simp [entry, clientBooks]⟩
  | writeError | readError =>
      refine Or.inr (Or.inr ⟨_, rfl, hreturns _ rfl, rfl, ?_⟩)
      rw [entries_breakSession (hreturns _ rfl), hown _ rfl]
  | @deadline vars sentSeq sendTs deadline gotEcho clock hdue =>
      rcases endWait_cases clientCfg vars gotEcho clock with
        ⟨-, heq⟩ | ⟨-, -, heq⟩ | ⟨-, -, heq⟩
      · rw [heq]
        exact Or.inl ⟨rfl, rfl⟩
      · rw [heq]
        exact Or.inl ⟨rfl, entries_recordMiss _⟩
      · rw [heq]
        refine Or.inr (Or.inr ⟨"timeout", rfl, Or.inr (by decide), rfl, ?_⟩)
        dsimp only
        rw [List.filterMap_append, entries_recordMiss, List.nil_append,
          entries_breakSession (Or.inr (by decide)), hown _ rfl]
  | @echo vars sentSeq sendTs deadline gotEcho clock outcome echoes echo hread =>
      rcases readEcho_cases { vars with echoes := echoes } sentSeq sendTs deadline clock echo with
        ⟨-, heq⟩ | ⟨-, heq⟩
      · rw [heq]
        exact Or.inl ⟨rfl, entries_recordEcho vars.startTs clock.wall (some sendTs)⟩
      · rw [heq]
        exact Or.inl ⟨rfl, entries_recordEcho vars.startTs clock.wall none⟩
  | cancelled hpoint =>
      have hlive := SessionPoint.live_of_interruptible hpoint
      refine Or.inr (Or.inr ⟨"cancelled", by rw [hlive]; rfl, Or.inl rfl, rfl, ?_⟩)
      rw [entries_breakSession (Or.inl rfl), hown _ hlive]

/-- The same for a step of the peer task. -/
theorem loopStep_entries {loop : PeerLoop F64} {after : PeerLoop F64 × List (Update F64)}
    (hstep : LoopStep loop clock completion after)
    (hown : ∀ point vars, loop.point = .session point → point.live = some vars →
      vars.label = loop.label) :
    (inSession after.1 = inSession loop ∧ after.1.ended = loop.ended ∧
        after.2.filterMap (clientEntry label) = []) ∨
      (inSession loop = false ∧ inSession after.1 = true ∧ after.1.ended = loop.ended ∧
        after.2.filterMap (clientEntry label) = underLabel label loop opening) ∨
      ∃ reason, inSession loop = true ∧ inSession after.1 = false ∧ EndReason reason ∧
        after.1.ended = loop.ended ++ [reason] ∧
        after.2.filterMap (clientEntry label) = underLabel label loop (closing reason) := by
  cases hstep with
  | begin hpoint =>
      exact Or.inl ⟨by simp [inSession, hpoint], rfl, entries_initDisconnectLabels _ _⟩
  | connectFailed hpoint =>
      exact Or.inl ⟨by simp [inSession, hpoint], rfl, entries_connectFailed _ _⟩
  | connected hpoint =>
      refine Or.inl ⟨?_, rfl, rfl⟩
      simp [inSession, hpoint, openSession, SessionPoint.live]
  | retry hpoint => exact Or.inl ⟨by simp [inSession, hpoint], rfl, rfl⟩
  | cancelled hcompletion hpoint =>
      refine Or.inl ⟨?_, rfl, rfl⟩
      rcases hpoint with hpoint | ⟨deadline, hpoint⟩ <;> simp [inSession, hpoint]
  | session hpoint hsession hgoes =>
      rcases sessionStep_entries hsession fun vars hlive => hown _ vars hpoint hlive with
        ⟨hlive, hentries⟩ | ⟨hbefore, hlive, hentries⟩ | ⟨reason, -, -, hreturned, -⟩
      · exact Or.inl ⟨by simpa [inSession, hpoint] using hlive, rfl, hentries⟩
      · exact Or.inr (Or.inl ⟨by simpa [inSession, hpoint] using hbefore, hlive, rfl, hentries⟩)
      · exact absurd hreturned (hgoes reason)
  | @sessionEnded point reason updates deadline hpoint hsession =>
      have hleft : inSession ({ loop with
          point := if reason = "cancelled" then .returned else .reconnecting deadline
          ended := endSession loop point reason } : PeerLoop F64) = false := by
        by_cases hcancelled : reason = "cancelled" <;> simp [inSession, hcancelled]
      rcases sessionStep_entries hsession fun vars hlive => hown _ vars hpoint hlive with
        ⟨hlive, hentries⟩ | ⟨-, hlive, -⟩ | ⟨reason', hlive, hreason, hreturned, hentries⟩
      · have hbefore : point.live.isSome = false := hlive.symm
        refine Or.inl ⟨?_, by simp [endSession, hbefore], hentries⟩
        rw [hleft]
        simp [inSession, hpoint, hbefore]
      · cases hlive
      · obtain rfl : reason = reason' := by simpa using hreturned
        exact Or.inr (Or.inr ⟨reason, by simpa [inSession, hpoint] using hlive, hleft, hreason,
          by simp [endSession, hlive], hentries⟩)

end Step

/-! ## The books of one task -/

section Invariant

variable [WallClock F64] {label : PeerLabel} {loop : PeerLoop F64} {clock : Reading F64}
variable {completion : Completion} {after : PeerLoop F64 × List (Update F64)}
variable {task : PeerLoopTask F64}

/-- A session of a task keeps the label of the task. -/
theorem loopStep_own (hstep : LoopStep loop clock completion after)
    (hown : ∀ point vars, loop.point = .session point → point.live = some vars →
      vars.label = loop.label) :
    ∀ point vars, after.1.point = .session point → point.live = some vars →
      vars.label = after.1.label := by
  intro point vars hpoint hlive
  cases hstep with
  | begin | connectFailed | retry | cancelled => cases hpoint
  | connected =>
      cases hpoint
      cases hlive
  | session hold hsession =>
      cases hpoint
      exact hsession.label_eq (fun vars hlive => hown _ vars hold hlive) vars hlive
  | sessionEnded =>
      dsimp only at hpoint
      split at hpoint <;> cases hpoint

omit [WallClock F64] in
theorem booked_spawned (label : PeerLabel) (peer : PeerConfig) (clientCfg : ClientConfig)
    (nodeName : String) :
    Booked label (Task.start (spawnPeerLoop peer clientCfg nodeName) : PeerLoopTask F64) where
  own point vars hpoint := by cases hpoint
  entries := by
    rw [underLabel]
    split <;> rfl
  pending := List.nil_suffix
  reasons reason hmem := by cases hmem

/-- What one step enters continues the history. -/
theorem Booked.act {made : List (Update F64)} (hbooked : Booked label ⟨loop, [], made⟩)
    (hstep : LoopStep loop clock completion after) : Booked label ⟨after.1, after.2, made⟩ := by
  have hlabel := hstep.arguments_eq.2
  have hentries : made.filterMap (clientEntry label) = underLabel label loop (history loop) := by
    simpa using hbooked.entries
  rcases loopStep_entries hstep hbooked.own with ⟨hsame, hended, hnone⟩ |
    ⟨hbefore, hafter, hended, hopened⟩ | ⟨reason, hbefore, hafter, hreason, hended, hclosed⟩
  · refine ⟨loopStep_own hstep hbooked.own, ?_, ?_, ?_⟩
    · rw [List.filterMap_append, hentries, hnone, List.append_nil]
      simp only [underLabel, hlabel, history, hsame, hended]
    · rw [hnone]
      exact List.nil_suffix
    · simpa only [hended] using hbooked.reasons
  · refine ⟨loopStep_own hstep hbooked.own, ?_, ?_, ?_⟩
    · rw [List.filterMap_append, hentries, hopened]
      simp only [underLabel, hlabel, history, hbefore, hafter, hended]
      split <;> simp
    · simp only [hopened, underLabel, hlabel, latest, hafter, if_true]
      exact List.suffix_refl _
    · simpa only [hended] using hbooked.reasons
  · refine ⟨loopStep_own hstep hbooked.own, ?_, ?_, ?_⟩
    · rw [List.filterMap_append, hentries, hclosed]
      simp only [underLabel, hlabel, history, hbefore, hafter, hended, sessionTexts_concat]
      split <;> simp
    · simp only [hclosed, underLabel, hlabel, latest, hafter, hended, List.getLast?_concat,
        Bool.false_eq_true, if_false]
      exact List.suffix_refl _
    · intro other hmem
      rw [hended] at hmem
      rcases List.mem_append.mp hmem with hold | hnew
      · exact hbooked.reasons other hold
      · rw [List.mem_singleton.mp hnew]
        exact hreason

/-- Every task enters the text of its sessions. -/
theorem booked_invariant (label : PeerLabel) :
    TaskInvariant (program F64) fun _ task => Booked label task where
  stable _ _ hbooked := hbooked
  spawn houtside control hmem := by
    rcases outside_cases houtside with ⟨manager, effect, -, hperform⟩ | ⟨_, _, -, -, rfl⟩ |
      ⟨_, -, -, rfl⟩
    · obtain ⟨-, rfl⟩ := Prod.mk.inj hperform
      cases effect with
      | nothing | cancel => cases hmem
      | spawn peer clientCfg =>
          rw [List.mem_singleton.mp hmem]
          exact booked_spawned label peer clientCfg _
    · cases hmem
    · cases hmem
  flush := by
    intro shared control update rest made hbooked
    refine ⟨hbooked.own, ?_, ?_, hbooked.reasons⟩
    · rw [List.append_assoc, List.singleton_append]
      exact hbooked.entries
    · exact ((List.suffix_cons update rest).filterMap _).trans hbooked.pending
  act hbooked hact := by
    obtain ⟨-, hstep, -⟩ := act_eq_some hact
    exact hbooked.act hstep

end Invariant

/-! ## What a task has written to its gauge -/

section Written

/-- The value that a list of entries leaves in the gauge. -/
def lastStored (entries : List Entry) : Option ℤ := (entries.filterMap Entry.stored).getLast?

theorem lastWrite_eq (label : PeerLabel) (updates : List (Update F64)) :
    lastWrite (Update.gaugeWrite .clientSessionActive label) updates =
      lastStored (updates.filterMap (clientEntry label)) := by
  have hstored : updates.filterMap (Update.gaugeWrite clientBooks.active label) =
      (updates.filterMap (clientEntry label)).filterMap Entry.stored :=
    filterMap_gaugeWrite updates
  rw [lastWrite, lastStored, ← hstored]
  rfl

theorem lastStored_append_of_none {front rest : List Entry}
    (hrest : ∀ found ∈ rest, found.stored = none) :
    lastStored (front ++ rest) = lastStored front := by
  have hnone : rest.filterMap Entry.stored = [] := List.filterMap_eq_nil_iff.mpr hrest
  rw [lastStored, List.filterMap_append, hnone, List.append_nil, lastStored]

theorem lastStored_active (front : List Entry) (value : ℤ) :
    lastStored (front ++ [.active value]) = some value := by
  simp [lastStored, Entry.stored]

/-- Of a text that starts by storing a value, the value has been stored unless
it is still pending. -/
theorem lastStored_of_suffix {front rest made pending : List Entry} {value : ℤ}
    (hrest : ∀ found ∈ rest, found.stored = none)
    (hall : made ++ pending = front ++ .active value :: rest)
    (hsuffix : pending <:+ .active value :: rest) :
    lastStored made = if .active value ∈ pending then lastStored front else some value := by
  obtain ⟨done, hdone⟩ := hsuffix
  have hmade : made = front ++ done := by
    rw [← hdone, ← List.append_assoc] at hall
    exact List.append_cancel_right hall
  cases done with
  | nil =>
      rw [List.nil_append] at hdone
      rw [hmade, List.append_nil, hdone, if_pos List.mem_cons_self]
  | cons first done =>
      obtain ⟨rfl, rfl⟩ := List.cons.inj hdone
      have hpending : Entry.active value ∉ pending := by
        intro hmem
        have hnone := hrest _ (List.mem_append_right done hmem)
        cases hnone
      rw [if_neg hpending, hmade, ← List.singleton_append, ← List.append_assoc,
        lastStored_append_of_none fun found hmem => hrest found (List.mem_append_left _ hmem),
        lastStored_active]

theorem stored_counted : ∀ found ∈ [Entry.counted], found.stored = none := by decide

theorem stored_disconnected (reason : String) :
    ∀ found ∈ (if reason = "cancelled" then [] else [Entry.disconnected reason]),
      found.stored = none := by
  intro found hmem
  split at hmem
  · cases hmem
  · rw [List.mem_singleton.mp hmem]
    rfl

theorem lastStored_sessionTexts (ended : List String) :
    lastStored (sessionTexts ended) = none ∨ lastStored (sessionTexts ended) = some 0 := by
  induction ended using List.reverseRecOn with
  | nil => exact Or.inl rfl
  | append_singleton ended reason ih =>
      right
      have hsplit : sessionTexts (ended ++ [reason]) = (sessionTexts ended ++ opening ++
          [.active 0]) ++ if reason = "cancelled" then [] else [.disconnected reason] := by
        simp [sessionTexts_concat, closing]
      rw [hsplit, lastStored_append_of_none (stored_disconnected reason), lastStored_active]

variable {label : PeerLabel} {task : PeerLoopTask F64}

/-- The last write of a task is 1 exactly while its session is live, and 0
otherwise. -/
theorem Booked.live_iff (hbooked : Booked label task) :
    lastWrite (Update.gaugeWrite .clientSessionActive label) task.made = some 1 ↔
      Live label task := by
  rw [lastWrite_eq, Live]
  have hentries := hbooked.entries
  have hpending := hbooked.pending
  rw [List.filterMap_append] at hentries
  by_cases hlabel : task.control.label = label
  · simp only [underLabel, hlabel, if_true] at hentries hpending
    rw [and_iff_right hlabel]
    by_cases hin : inSession task.control = true
    · simp only [history, latest, hin, if_true] at hentries hpending ⊢
      rw [lastStored_of_suffix stored_counted hentries hpending]
      split
      · next hmem =>
          refine iff_of_false ?_ (not_not_intro hmem)
          rcases lastStored_sessionTexts task.control.ended with hlast | hlast <;>
            simp [hlast]
      · next hmem => exact iff_of_true rfl hmem
    · simp only [history, latest, hin, Bool.false_eq_true, if_false, List.append_nil]
        at hentries hpending ⊢
      rcases List.eq_nil_or_concat task.control.ended with hended | ⟨ended, reason, hended⟩
      · rw [hended] at hentries hpending
        obtain ⟨hmade, hnone⟩ := List.append_eq_nil_iff.mp hentries
        rw [hmade, hnone]
        simp [lastStored]
      · rw [List.concat_eq_append] at hended
        rw [hended, sessionTexts_concat, ← List.append_assoc] at hentries
        rw [hended, List.getLast?_concat] at hpending
        rw [lastStored_of_suffix (stored_disconnected reason) hentries hpending]
        split
        · next hmem =>
            refine iff_of_true ?_ hmem
            rw [opening, ← List.singleton_append, ← List.append_assoc,
              lastStored_append_of_none stored_counted, lastStored_active]
        · next hmem => exact iff_of_false (by decide) hmem
  · simp only [underLabel, hlabel, if_false] at hentries
    obtain ⟨hmade, -⟩ := List.append_eq_nil_iff.mp hentries
    rw [hmade]
    simp [lastStored, hlabel]

/-- What a task still has to write is 1 or 0, and it writes under its own
label. -/
theorem Booked.pending_write (hbooked : Booked label task) {update : Update F64} {stored : ℤ}
    (hmem : update ∈ task.pending)
    (hwrite : update.gaugeWrite .clientSessionActive label = some stored) :
    task.control.label = label ∧ (stored = 1 ∨ stored = 0) := by
  have hentry : .active stored ∈ task.pending.filterMap (clientEntry label) := by
    refine List.mem_filterMap.mpr ⟨update, hmem, ?_⟩
    rw [Update.eq_setGauge_of_gaugeWrite hwrite]
    simp [entry, clientBooks]
  have hlatest := hbooked.pending.subset hentry
  rw [underLabel] at hlatest
  split at hlatest
  · next hlabel =>
      refine ⟨hlabel, ?_⟩
      unfold latest at hlatest
      split at hlatest
      · left
        simpa [opening] using hlatest
      · split at hlatest
        · cases hlatest
        · right
          unfold closing at hlatest
          split at hlatest <;> simpa using hlatest
  · cases hlatest

end Written

/-! ## What a task has counted -/

section Counted

theorem shares_sessionTexts (ended : List String) :
    ((sessionTexts ended).map Entry.total).sum =
      ((sessionTexts ended).map Entry.disconnects).sum + ended.count "cancelled" := by
  induction ended with
  | nil => rfl
  | cons reason ended ih =>
      have hsplit : sessionTexts (reason :: ended) =
          opening ++ closing reason ++ sessionTexts ended := rfl
      rw [hsplit]
      by_cases hreason : reason = "cancelled"
      · simp [ih, hreason, opening, closing, Entry.total, Entry.disconnects]
        omega
      · simp [ih, hreason, opening, closing, Entry.total, Entry.disconnects]
        omega

variable {label : PeerLabel} {task : PeerLoopTask F64}

/-- A task that is not part-way through a start or an end has counted its live
session and those that have ended. -/
theorem Booked.share_eq (hbooked : Booked label task) (hsettled : ¬ PartWay label task) :
    (task.made.map (totalWeight clientBooks label)).sum =
      (if Live label task then 1 else 0) +
        ((task.made.map (disconnectsWeight clientBooks label)).sum +
          cancelledSessions label task) := by
  have hnone : task.pending.filterMap (clientEntry label) = [] := Classical.not_not.mp hsettled
  have hentries := hbooked.entries
  rw [List.filterMap_append, hnone, List.append_nil] at hentries
  rw [sum_map_weight totalWeight_eq, sum_map_weight disconnectsWeight_eq, hentries]
  simp only [Live, hnone, List.not_mem_nil, underLabel, cancelledSessions]
  by_cases hlabel : task.control.label = label
  · have htexts := shares_sessionTexts task.control.ended
    by_cases hin : inSession task.control = true
    · simp [hlabel, hin, history, opening, Entry.total, Entry.disconnects]
      omega
    · simp [hlabel, hin, history]
      omega
  · simp [hlabel]

end Counted

/-! ## The books of all tasks -/

section Conservation

variable [WallClock F64] {pool next : Peers F64} {label : PeerLabel}

/-- `client_session_active` of a label, if there is such an entry. -/
def sessionActive (label : PeerLabel) (shared : ClientShared F64) : Option ℤ :=
  (shared.metrics.gauge .clientSessionActive).lookup label

omit [WallClock F64] in
/-- The inbound side of the process enters nothing. -/
theorem entry_of_isInbound {update : Update F64} (hupdate : isInbound update = true) :
    entry clientBooks label update = none := by
  cases update with
  | setGauge family label' | incCounter family label' | incDisconnect family label' =>
      cases family <;> simp [isInbound, entry, clientBooks] at hupdate ⊢
  | setFloat | createDisconnect => rfl

/-- What happens around the tasks changes nothing in the books. -/
theorem outside_metrics {event : ClientEvent F64} {shared : ClientShared F64}
    {spawned : List (PeerLoop F64)}
    (houtside : (program F64).outside pool event = some (shared, spawned)) :
    shared.metrics = pool.shared.metrics ∨ ∃ update, isInbound update = true ∧
      shared.metrics = update.apply pool.shared.metrics := by
  rcases outside_cases houtside with ⟨manager, effect, -, hperform⟩ | ⟨_, _, -, rfl, -⟩ |
    ⟨update, hupdate, rfl, -⟩
  · obtain ⟨rfl, -⟩ := Prod.mk.inj hperform
    cases effect <;> exact Or.inl rfl
  · exact Or.inl rfl
  · exact Or.inr ⟨update, hupdate, rfl⟩

theorem activeRegister (label : PeerLabel) :
    Register (program F64) (sessionActive label)
      (Update.gaugeWrite .clientSessionActive label) where
  apply update shared := Update.lookup_gauge_apply update shared.metrics _ label
  act hact := by
    obtain ⟨rfl, -, -⟩ := act_eq_some hact
    rfl
  outside {pool event shared spawned} houtside := by
    rcases outside_metrics houtside with hmetrics | ⟨update, hupdate, hmetrics⟩
    · rw [sessionActive, hmetrics]
      rfl
    · have hnone : update.gaugeWrite clientBooks.active label = none := by
        rw [gaugeWrite_eq, entry_of_isInbound hupdate]
        rfl
      rw [sessionActive, hmetrics, Update.lookup_gauge_apply]
      exact congrArg (fun write => Option.or write _) hnone

/-- A counter of the books that each update raises by its weight. -/
theorem booksCounter {value : Metrics F64 → ℕ} {weight : Update F64 → ℕ} {share : Entry → ℕ}
    (happly : ∀ update metrics, value (update.apply metrics) = value metrics + weight update)
    (hweight : ∀ update, weight update = (entry clientBooks label update).elim 0 share) :
    Counter (program F64) (fun shared => value shared.metrics) weight where
  apply update shared := happly update shared.metrics
  act hact := by
    obtain ⟨rfl, -, -⟩ := act_eq_some hact
    rfl
  outside {pool event shared spawned} houtside := by
    rcases outside_metrics houtside with hmetrics | ⟨update, hupdate, hmetrics⟩
    · rw [hmetrics]
    · rw [hmetrics, happly, hweight, entry_of_isInbound hupdate]
      rfl

omit [WallClock F64] in
/-- Once a later task with its label exists, a task has returned and has no
update left to make. -/
theorem done_of_replaced (hsound : Sound pool) {earlier later : ℕ} {old new : PeerLoopTask F64}
    (hlt : earlier < later) (hold : pool.tasks[earlier]? = some old)
    (hnew : pool.tasks[later]? = some new) (hlabel : old.control.label = new.control.label) :
    old.control.point = .returned ∧ old.pending = [] := by
  have hname : old.control.peer.name = new.control.peer.name := congrArg PeerLabel.peer hlabel
  have hdone := (hsound.owned.replaced ⟨old.control.peer, earlier⟩ ⟨new.control.peer, later⟩
    ⟨old, hold, rfl⟩ ⟨new, hnew, rfl⟩ hlt hname).2
  obtain ⟨task, hget, hreturned⟩ := finished_iff.mp hdone
  rw [hold] at hget
  cases hget
  exact hreturned

omit [WallClock F64] in
theorem not_live_of_done {task : PeerLoopTask F64} (hreturned : task.control.point = .returned)
    (hpending : task.pending = []) : ¬ Live label task := by
  rintro ⟨-, hlive⟩
  simp [inSession, hreturned, hpending] at hlive

omit [WallClock F64] in
/-- Of all tasks with one label at most one has a live session. -/
theorem live_unique (hsound : Sound pool) {index other : ℕ} {task task' : PeerLoopTask F64}
    (hget : pool.tasks[index]? = some task) (hget' : pool.tasks[other]? = some task')
    (hlive : Live label task) (hlive' : Live label task') : index = other := by
  have hlabel := hlive.1.trans hlive'.1.symm
  rcases lt_trichotomy index other with hlt | heq | hlt
  · obtain ⟨hreturned, hpending⟩ := done_of_replaced hsound hlt hget hget' hlabel
    exact absurd hlive (not_live_of_done hreturned hpending)
  · exact heq
  · obtain ⟨hreturned, hpending⟩ := done_of_replaced hsound hlt hget' hget hlabel.symm
    exact absurd hlive' (not_live_of_done hreturned hpending)

variable {config : Config}

theorem booked_of_reachable
    (hreach : Reachable (TaskPool.step (program F64)) (start F64 config) pool)
    (label : PeerLabel) : ∀ task ∈ pool.tasks, Booked label task :=
  (booked_invariant label).reachable hreach (by simp [start])

theorem written_iff_live
    (hreach : Reachable (TaskPool.step (program F64)) (start F64 config) pool)
    (label : PeerLabel) :
    (∃ index, written (Update.gaugeWrite .clientSessionActive label) pool index = some 1) ↔
      ∃ task ∈ pool.tasks, Live label task := by
  have hbooked := booked_of_reachable hreach label
  constructor
  · rintro ⟨index, hwritten⟩
    obtain ⟨task, hget, hlast⟩ := Option.bind_eq_some_iff.mp hwritten
    have hmem := List.mem_of_getElem? hget
    exact ⟨task, hmem, (hbooked task hmem).live_iff.mp hlast⟩
  · rintro ⟨task, hmem, hlive⟩
    obtain ⟨index, hget⟩ := List.mem_iff_getElem?.mp hmem
    exact ⟨index, (written_of_getElem? hget).trans ((hbooked task hmem).live_iff.mpr hlive)⟩

/-- No task sets the gauge to 0 while another task's session is live. -/
theorem not_overwrites
    (hreach : Reachable (TaskPool.step (program F64)) (start F64 config) pool)
    (move : ClientMove F64) :
    ¬ Overwrites (Update.gaugeWrite .clientSessionActive label) 1 0 pool move := by
  rintro ⟨index, ⟨-, control, update, rest, made, hget, hwrite⟩, other, hother, hwritten⟩
  have hsound := Sound.reachable hreach
  have hbooked := booked_of_reachable hreach label
  obtain ⟨hlabel, -⟩ := (hbooked _ (List.mem_of_getElem? hget)).pending_write
    List.mem_cons_self hwrite
  obtain ⟨task, hget', hlast⟩ := Option.bind_eq_some_iff.mp hwritten
  have hlive := (hbooked task (List.mem_of_getElem? hget')).live_iff.mp hlast
  have hsame : task.control.label = control.label := hlive.1.trans hlabel.symm
  rcases lt_or_gt_of_ne hother with hlt | hlt
  · obtain ⟨hreturned, hpending⟩ := done_of_replaced hsound hlt hget' hget hsame
    exact absurd hlive (not_live_of_done hreturned hpending)
  · obtain ⟨-, hpending⟩ := done_of_replaced hsound hlt hget hget' hsame.symm
    cases hpending

/-- The gauge is 1 exactly while a session is live. -/
theorem shows_reachable
    (hreach : Reachable (TaskPool.step (program F64)) (start F64 config) pool) :
    Shows (sessionActive label) (Update.gaugeWrite .clientSessionActive label) 1 0 pool := by
  refine hreach.invariant_of_reachable
    (Shows (sessionActive label) (Update.gaugeWrite .clientSessionActive label) 1 0) ?_ ?_
  · have hidle : ¬ ∃ index, written (Update.gaugeWrite .clientSessionActive label)
        (start F64 config) index = some 1 := by
      rintro ⟨index, hwritten⟩
      simp [written, start] at hwritten
    have habsent : sessionActive label (start F64 config).shared = none := rfl
    exact ⟨iff_of_false (by simp [habsent]) hidle, fun _ => Or.inl habsent⟩
  · intro state move next hstate hshows hstep
    refine ((activeRegister label).shows_iff (by decide) ?_ hshows hstep).mpr
      (not_overwrites hstate move)
    rintro index stored ⟨-, control, update, rest, made, hget, hwrite⟩
    exact ((booked_of_reachable hstate label _ (List.mem_of_getElem? hget)).pending_write
      List.mem_cons_self hwrite).2

/-- When no session is part-way through its start or end, the number of
sessions is that of the live ones, the disconnects and the cancelled ones. -/
theorem sessionsTotal_eq
    (hreach : Reachable (TaskPool.step (program F64)) (start F64 config) pool)
    (hsettled : ∀ task ∈ pool.tasks, ¬ PartWay label task) :
    sessionsTotal clientBooks label pool.shared.metrics =
      (if ∃ task ∈ pool.tasks, Live label task then 1 else 0) +
        disconnectsTotal clientBooks label pool.shared.metrics +
          (pool.tasks.map (cancelledSessions label)).sum := by
  have hsound := Sound.reachable hreach
  have htotal : sessionsTotal clientBooks label pool.shared.metrics =
      0 + madeTotal (totalWeight clientBooks label) pool.tasks :=
    (booksCounter sessionsTotal_apply totalWeight_eq).reachable hreach
  have hdisconnects : disconnectsTotal clientBooks label pool.shared.metrics =
      0 + madeTotal (disconnectsWeight clientBooks label) pool.tasks :=
    (booksCounter disconnectsTotal_apply disconnectsWeight_eq).reachable hreach
  have hshares : madeTotal (totalWeight clientBooks label) pool.tasks =
      pool.tasks.countP (fun task => decide (Live label task)) +
        (pool.tasks.map fun task => (task.made.map (disconnectsWeight clientBooks label)).sum +
          cancelledSessions label task).sum :=
    sum_map_eq_countP_add fun task hmem => by
      simpa using (booked_of_reachable hreach label task hmem).share_eq (hsettled task hmem)
  have hcount : pool.tasks.countP (fun task => decide (Live label task)) =
      if ∃ task ∈ pool.tasks, Live label task then 1 else 0 := by
    simpa using countP_eq_ite fun index other task task' hget hget' hlive hlive' =>
      live_unique hsound hget hget' (of_decide_eq_true hlive) (of_decide_eq_true hlive')
  rw [List.sum_map_add, hcount] at hshares
  rw [htotal, hdisconnects, zero_add, zero_add, hshares, Nat.add_assoc]
  rfl

/-- The books of outbound sessions in every reachable state, for every label.
The gauge is 1 while a session with the label is live, and 0 or absent
otherwise.  When no such session is part-way through its start or end, the
number of sessions is the live one, the disconnects over the four reasons, and
the cancelled ones.  Once the replacement of a task exists, the old task makes
no step any more, so it overwrites nothing. -/
theorem session_books_conserved
    (hreach : Reachable (TaskPool.step (program F64)) (start F64 config) pool)
    (label : PeerLabel) :
    (sessionActive label pool.shared = some 1 ↔ ∃ task ∈ pool.tasks, Live label task) ∧
      ((¬ ∃ task ∈ pool.tasks, Live label task) →
        sessionActive label pool.shared = none ∨ sessionActive label pool.shared = some 0) ∧
      ((∀ task ∈ pool.tasks, ¬ PartWay label task) →
        sessionsTotal clientBooks label pool.shared.metrics =
          (if ∃ task ∈ pool.tasks, Live label task then 1 else 0) +
            disconnectsTotal clientBooks label pool.shared.metrics +
              (pool.tasks.map (cancelledSessions label)).sum) ∧
      ∀ earlier later old new, earlier < later → pool.tasks[earlier]? = some old →
        pool.tasks[later]? = some new → old.control.label = new.control.label →
          TaskPool.step (program F64) pool (.flush earlier) = none ∧
            ∀ input, TaskPool.step (program F64) pool (.act earlier input) = none := by
  have hshows : Shows (sessionActive label) (Update.gaugeWrite .clientSessionActive label) 1 0
      pool := shows_reachable hreach
  have hlive := written_iff_live hreach label
  refine ⟨hshows.on_iff.trans hlive, ?_, sessionsTotal_eq hreach, ?_⟩
  · intro hidle
    exact hshows.off_otherwise fun hwritten => hidle (hlive.mp hwritten)
  · intro earlier later old new hlt hold hnew hlabel
    obtain ⟨hreturned, hpending⟩ :=
      done_of_replaced (Sound.reachable hreach) hlt hold hnew hlabel
    constructor
    · refine Option.eq_none_iff_forall_ne_some.mpr fun next hstep => ?_
      obtain ⟨control, update, rest, made, hget, -⟩ := step_flush_eq_some.mp hstep
      rw [hold] at hget
      cases hget
      cases hpending
    · intro input
      refine Option.eq_none_iff_forall_ne_some.mpr fun next hstep => ?_
      obtain ⟨loop, made, shared, loop', updates, hget, hact, -⟩ := step_act_eq_some.mp hstep
      rw [hold] at hget
      cases hget
      exact (act_eq_some hact).2.1.not_returned hreturned

end Conservation

end Books

section Witness

/-- A peer task from its first line to the start of its first session. -/
def establish (index : ℕ) : List (ClientMove WholeSeconds) :=
  [.act index (⟨0, ⟨0⟩⟩, .ready)] ++ List.replicate 9 (.flush index) ++
    [.act index (⟨0, ⟨0⟩⟩, .connected (.ok ())), .act index (⟨0, ⟨0⟩⟩, .wrote (.ok 5))] ++
    List.replicate 4 (.flush index)

/-- A peer with a live session changes its port, and the task that replaces its
first one starts a session of its own. -/
def restartPeer : List (ClientMove WholeSeconds) :=
  [.outside (.manage (.order [])), .outside (.manage (.order ["a"])), .outside (.manage .go),
    .outside (.manage .go)] ++
  establish 0 ++
  [.act 0 (⟨0, ⟨0⟩⟩, .ready), .outside (.send (monitoring [⟨"a", "h", 2⟩])),
    .outside (.manage .changed), .outside (.manage (.order ["a"])), .outside (.manage .go),
    .act 0 (⟨0, ⟨0⟩⟩, .cancelled), .flush 0, .flush 0, .outside (.manage .go),
    .outside (.manage (.order ["a"])), .outside (.manage .go)] ++
  establish 1

/-- Two sessions have started; one of them is live and the other one was
cancelled. -/
theorem session_books_conserved_restart :
    ∃ pool, run (TaskPool.step (program WholeSeconds))
        (start WholeSeconds (monitoring [⟨"a", "h", 1⟩])) restartPeer = some pool ∧
      sessionActive ⟨"n", "a"⟩ pool.shared = some 1 ∧
      sessionsTotal clientBooks ⟨"n", "a"⟩ pool.shared.metrics = 2 ∧
      (pool.tasks.map (cancelledSessions ⟨"n", "a"⟩)).sum = 1 ∧
      ∃ task ∈ pool.tasks, Live ⟨"n", "a"⟩ task := by
  obtain ⟨pool, hrun, hview⟩ := Option.map_eq_some_iff.mp (show
    (run (TaskPool.step (program WholeSeconds))
      (start WholeSeconds (monitoring [⟨"a", "h", 1⟩])) restartPeer).map
        (fun pool => (sessionActive ⟨"n", "a"⟩ pool.shared,
          sessionsTotal clientBooks ⟨"n", "a"⟩ pool.shared.metrics,
          (pool.tasks.map (cancelledSessions ⟨"n", "a"⟩)).sum)) = some (some 1, 2, 1) by
      decide +kernel)
  simp only [Prod.mk.injEq] at hview
  obtain ⟨hactive, htotal, hcancelled⟩ := hview
  have hlive := (session_books_conserved (Reachable.of_run hrun) ⟨"n", "a"⟩).1.mp hactive
  exact ⟨pool, hrun, hactive, htotal, hcancelled, hlive⟩

end Witness

end TcpMonitor.SessionConservation
