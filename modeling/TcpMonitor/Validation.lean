import TcpMonitor.Client.PeerManager

/-!
# What validation accepts

The rules of the config file, stated without the loops that check them.
`Config::validate` accepts a config exactly if it follows the rules, reports the
first entry of `[[peers]]` that breaks one, and what it accepts loses no peer in
the table that `run_manager` builds.
-/

namespace TcpMonitor.Validation

open TcpMonitor.Configuration
open TcpMonitor.PeerManager

/-! ## The rules -/

/-- The rules on everything but the peers. -/
structure SettingsValid [SocketAddrParser] (config : Config) : Prop where
  nodeName : config.node.name ≠ ""
  bindIsIp : ∃ address, bindAddr config.server.bind 0 = .ok address
  portsDiffer : config.server.heartbeatPort ≠ config.server.metricsPort ∧
    config.server.heartbeatPort ≠ config.server.probePort ∧
    config.server.metricsPort ≠ config.server.probePort
  recvTimeout : 1 ≤ config.server.heartbeatRecvTimeout ∧
    config.server.heartbeatRecvTimeout ≤ 86400
  idleTimeout : config.server.probeIdleTimeout ≤ 86400
  client : ∀ client, config.client = some client →
    (1 ≤ client.heartbeatInterval ∧ client.heartbeatInterval ≤ 86400) ∧
      (1 ≤ client.reconnectDelay ∧ client.reconnectDelay ≤ 86400)

/-- The rules on the peers. -/
structure PeersValid (peers : List PeerConfig) : Prop where
  named : ∀ peer ∈ peers, peer.name ≠ "" ∧ peer.host ≠ ""
  distinct : (peers.map PeerConfig.name).Nodup

/-- The kinds of errors in an entry of `[[peers]]`. -/
inductive Offence where
  | emptyName
  | emptyHost (name : String)
  | duplicateName (name : String)
  deriving DecidableEq

/-- The text that reports an error. -/
def Offence.message : Offence → String
  | emptyName => "every [[peers]] entry must have a non-empty name"
  | emptyHost name => "peer '" ++ name ++ "' has an empty host"
  | duplicateName name => "duplicate peer name: '" ++ name ++ "'"

/-- The error in an entry that follows the `earlier` ones, if there is one: the
first of an empty name, an empty host and a name that an earlier entry has. -/
def offence (earlier : List PeerConfig) (peer : PeerConfig) : Option Offence :=
  if peer.name = "" then some .emptyName
  else if peer.host = "" then some (.emptyHost peer.name)
  else if peer.name ∈ earlier.map PeerConfig.name then some (.duplicateName peer.name)
  else none

/-- The error in the entry at a position, in a list that follows the `earlier`
entries. -/
def offenceAt (earlier peers : List PeerConfig) (position : ℕ) : Option Offence :=
  peers[position]?.bind (offence (earlier ++ peers.take position))

/-- The entry at this position is the first one with an error. -/
def FirstOffence (earlier peers : List PeerConfig) (position : ℕ) (error : Offence) : Prop :=
  offenceAt earlier peers position = some error ∧
    ∀ before < position, offenceAt earlier peers before = none

/-! ## The loop over the peers -/

@[simp]
theorem offenceAt_zero (earlier : List PeerConfig) (peer : PeerConfig)
    (others : List PeerConfig) :
    offenceAt earlier (peer :: others) 0 = offence earlier peer := by
  simp [offenceAt]

@[simp]
theorem offenceAt_succ (earlier : List PeerConfig) (peer : PeerConfig)
    (others : List PeerConfig) (position : ℕ) :
    offenceAt earlier (peer :: others) (position + 1) =
      offenceAt (earlier ++ [peer]) others position := by
  simp [offenceAt]

/-- One turn of the loop; its set holds the names of the earlier entries. -/
theorem checkPeers_cons (earlier : List PeerConfig) (peer : PeerConfig)
    (others : List PeerConfig) :
    checkPeers (earlier.map PeerConfig.name).toFinset (peer :: others) =
      match offence earlier peer with
      | some error => .error error.message
      | none => checkPeers ((earlier ++ [peer]).map PeerConfig.name).toFinset others := by
  have hseen : insert peer.name (earlier.map PeerConfig.name).toFinset =
      ((earlier ++ [peer]).map PeerConfig.name).toFinset := by
    ext name
    simp
  rw [checkPeers, hseen]
  simp only [String.isEmpty_iff, offence, List.mem_toFinset]
  split
  · rfl
  · split
    · rfl
    · split
      · rfl
      · rfl

/-- The loop reports the first entry with an error, or there is none. -/
theorem checkPeers_cases (earlier peers : List PeerConfig) :
    (∃ position error, FirstOffence earlier peers position error ∧
      checkPeers (earlier.map PeerConfig.name).toFinset peers = .error error.message) ∨
    ((∀ position, offenceAt earlier peers position = none) ∧
      checkPeers (earlier.map PeerConfig.name).toFinset peers = .ok ()) := by
  induction peers generalizing earlier with
  | nil => exact Or.inr ⟨fun position => by simp [offenceAt], rfl⟩
  | cons peer others ih =>
      rw [checkPeers_cons]
      cases hoffence : offence earlier peer with
      | some error =>
          refine Or.inl ⟨0, error, ⟨?_, fun before hbefore => absurd hbefore (by omega)⟩, rfl⟩
          rw [offenceAt_zero, hoffence]
      | none =>
          have hzero : offenceAt earlier (peer :: others) 0 = none := by
            rw [offenceAt_zero, hoffence]
          rcases ih (earlier ++ [peer]) with ⟨position, error, ⟨hat, hbefore⟩, hcheck⟩ |
            ⟨hnone, hcheck⟩
          · refine Or.inl ⟨position + 1, error, ⟨by rw [offenceAt_succ, hat], ?_⟩, hcheck⟩
            intro before hlt
            cases before with
            | zero => exact hzero
            | succ before => rw [offenceAt_succ, hbefore before (by omega)]
          · refine Or.inr ⟨?_, hcheck⟩
            intro position
            cases position with
            | zero => exact hzero
            | succ position => rw [offenceAt_succ, hnone position]

/-- There is at most one first entry with an error. -/
theorem FirstOffence.unique {earlier peers : List PeerConfig} {left right : ℕ}
    {leftError rightError : Offence} (hleft : FirstOffence earlier peers left leftError)
    (hright : FirstOffence earlier peers right rightError) : leftError = rightError := by
  rcases Nat.lt_trichotomy left right with hlt | rfl | hlt
  · have hnone := hright.2 left hlt
    rw [hleft.1] at hnone
    cases hnone
  · exact Option.some.inj (hleft.1.symm.trans hright.1)
  · have hnone := hleft.2 right hlt
    rw [hright.1] at hnone
    cases hnone

theorem offence_eq_none {earlier : List PeerConfig} {peer : PeerConfig} :
    offence earlier peer = none ↔
      (peer.name ≠ "" ∧ peer.host ≠ "") ∧ peer.name ∉ earlier.map PeerConfig.name := by
  rw [offence]
  split
  · next hname => exact ⟨nofun, fun hgood => absurd hname hgood.1.1⟩
  · next hname =>
      split
      · next hhost => exact ⟨nofun, fun hgood => absurd hhost hgood.1.2⟩
      · next hhost =>
          split
          · next hmem => exact ⟨nofun, fun hgood => absurd hmem hgood.2⟩
          · next hmem => exact ⟨fun _ => ⟨⟨hname, hhost⟩, hmem⟩, fun _ => rfl⟩

/-- Entries without errors are those that follow the rules and share no name
with an earlier one. -/
theorem forall_offenceAt_eq_none {earlier peers : List PeerConfig} :
    (∀ position, offenceAt earlier peers position = none) ↔
      PeersValid peers ∧
        ∀ peer ∈ peers, peer.name ∉ earlier.map PeerConfig.name := by
  induction peers generalizing earlier with
  | nil => exact ⟨fun _ => ⟨⟨nofun, List.nodup_nil⟩, nofun⟩, fun _ position => by simp [offenceAt]⟩
  | cons peer others ih =>
      have hsplit : (∀ position, offenceAt earlier (peer :: others) position = none) ↔
          offence earlier peer = none ∧
            ∀ position, offenceAt (earlier ++ [peer]) others position = none := by
        constructor
        · intro hnone
          exact ⟨by rw [← hnone 0, offenceAt_zero], fun position => by
            rw [← hnone (position + 1), offenceAt_succ]⟩
        · rintro ⟨hfirst, hrest⟩ position
          cases position with
          | zero => rw [offenceAt_zero, hfirst]
          | succ position => rw [offenceAt_succ, hrest position]
      rw [hsplit, ih, offence_eq_none]
      constructor
      · rintro ⟨⟨hgood, hnew⟩, ⟨hnamed, hdistinct⟩, hfresh⟩
        refine ⟨⟨List.forall_mem_cons.mpr ⟨hgood, hnamed⟩, List.nodup_cons.mpr ⟨?_, hdistinct⟩⟩,
          List.forall_mem_cons.mpr ⟨hnew, fun other hmem hold => ?_⟩⟩
        · intro hname
          obtain ⟨other, hmem, hsame⟩ := List.mem_map.mp hname
          exact hfresh other hmem (by simp [hsame])
        · exact hfresh other hmem (by
            rw [List.map_append]
            exact List.mem_append_left _ hold)
      · rintro ⟨⟨hnamed, hdistinct⟩, hfresh⟩
        obtain ⟨hnew, hnewRest⟩ := List.forall_mem_cons.mp hfresh
        obtain ⟨hgood, hnamedRest⟩ := List.forall_mem_cons.mp hnamed
        obtain ⟨hfirst, hdistinctRest⟩ := List.nodup_cons.mp hdistinct
        refine ⟨⟨hgood, hnew⟩, ⟨hnamedRest, hdistinctRest⟩, fun other hmem hold => ?_⟩
        rw [List.map_append, List.mem_append] at hold
        rcases hold with hold | hold
        · exact hnewRest other hmem hold
        · have hsame : other.name = peer.name := by simpa using hold
          exact hfirst (hsame ▸ List.mem_map_of_mem hmem)

theorem checkPeers_eq_ok {peers : List PeerConfig} :
    checkPeers ∅ peers = .ok () ↔ PeersValid peers := by
  have hnone : (∀ position, offenceAt [] peers position = none) ↔
      PeersValid peers ∧ ∀ peer ∈ peers, peer.name ∉ ([] : List PeerConfig).map PeerConfig.name :=
    forall_offenceAt_eq_none
  have hempty : ((([] : List PeerConfig).map PeerConfig.name).toFinset) = ∅ := rfl
  rcases checkPeers_cases [] peers with ⟨position, error, hfirst, hcheck⟩ | ⟨hall, hcheck⟩
  · rw [hempty] at hcheck
    rw [hcheck]
    refine ⟨nofun, fun hvalid => ?_⟩
    have hat := hnone.mpr ⟨hvalid, by simp⟩ position
    rw [hfirst.1] at hat
    cases hat
  · rw [hempty] at hcheck
    exact ⟨fun _ => (hnone.mp hall).1, fun _ => hcheck⟩

/-! ## The whole validation -/

/-- The nested loop finds no pair exactly if no port occurs twice. -/
theorem checkPorts_eq_ok {ports : List (String × UInt16)} :
    checkPorts ports = .ok () ↔ (ports.map Prod.snd).Nodup := by
  induction ports with
  | nil => exact ⟨fun _ => List.nodup_nil, fun _ => rfl⟩
  | cons head others ih =>
      obtain ⟨name, port⟩ := head
      rw [checkPorts, List.map_cons, List.nodup_cons, ← ih]
      split
      · next other hfind =>
          have hmem := List.mem_of_find?_eq_some hfind
          have hsame : other.2 = port := by simpa using List.find?_some hfind
          have hold : port ∈ others.map Prod.snd := List.mem_map.mpr ⟨other, hmem, hsame⟩
          exact ⟨nofun, fun hgood => absurd hold hgood.1⟩
      · next hfind =>
          have hnew : port ∉ others.map Prod.snd := by
            intro hmem
            obtain ⟨other, hother, hsame⟩ := List.mem_map.mp hmem
            have hdiffers := List.find?_eq_none.mp hfind other hother
            simp [hsame] at hdiffers
          exact ⟨fun hgood => ⟨hnew, hgood⟩, fun hgood => hgood.2⟩

/-- The table of timings says what the rules say. -/
theorem timings_iff (config : Config) :
    (∀ row ∈ timings config, row.2.2 ≤ row.2.1 ∧ row.2.1 ≤ maxSeconds) ↔
      ((1 ≤ config.server.heartbeatRecvTimeout ∧ config.server.heartbeatRecvTimeout ≤ 86400) ∧
        config.server.probeIdleTimeout ≤ 86400) ∧
      ∀ client, config.client = some client →
        (1 ≤ client.heartbeatInterval ∧ client.heartbeatInterval ≤ 86400) ∧
          (1 ≤ client.reconnectDelay ∧ client.reconnectDelay ≤ 86400) := by
  cases hclient : config.client with
  | none => simp [timings, hclient, maxSeconds]
  | some client => simp [timings, hclient, maxSeconds, and_assoc]

theorem validate_eq_ok_iff [SocketAddrParser] (config : Config) :
    config.validate = .ok () ↔ SettingsValid config ∧ PeersValid config.peers := by
  rw [validate_eq_ok, checkPorts_eq_ok, checkPeers_eq_ok, timings_iff]
  constructor
  · rintro ⟨hname, hbind, hports, ⟨⟨hrecv, hidle⟩, hclient⟩, hpeers⟩
    exact ⟨⟨hname, hbind, by simpa [and_assoc] using hports, hrecv, hidle, hclient⟩, hpeers⟩
  · rintro ⟨⟨hname, hbind, hports, hrecv, hidle, hclient⟩, hpeers⟩
    exact ⟨hname, hbind, by simpa [and_assoc] using hports, ⟨⟨hrecv, hidle⟩, hclient⟩, hpeers⟩

/-- With the settings in order, the loop over the peers has the last word. -/
theorem validate_of_settings [SocketAddrParser] {config : Config}
    (hsettings : SettingsValid config) : config.validate = checkPeers ∅ config.peers := by
  obtain ⟨hname, ⟨address, hbind⟩, hports, hrecv, hidle, hclient⟩ := hsettings
  have hnonempty : ¬config.node.name.isEmpty = true := fun hempty =>
    hname (String.isEmpty_iff.mp hempty)
  have hdistinct : checkPorts [("heartbeat_port", config.server.heartbeatPort),
      ("metrics_port", config.server.metricsPort),
      ("probe_port", config.server.probePort)] = .ok () :=
    checkPorts_eq_ok.mpr (by simpa [and_assoc] using hports)
  have htable : (timings config).forM checkTiming = .ok () := by
    rw [forM_checkTiming_eq_ok]
    intro row hrow
    exact checkTiming_eq_ok.mpr ((timings_iff config).mpr ⟨⟨hrecv, hidle⟩, hclient⟩ row hrow)
  rw [validate_eq, if_neg hnonempty, hbind, hdistinct, htable]
  rfl

theorem validate_eq_error [SocketAddrParser] {config : Config} (hsettings : SettingsValid config)
    (message : String) :
    config.validate = .error message ↔
      ∃ position error, FirstOffence [] config.peers position error ∧ message = error.message := by
  have hempty : ((([] : List PeerConfig).map PeerConfig.name).toFinset) = ∅ := rfl
  rw [validate_of_settings hsettings]
  rcases checkPeers_cases [] config.peers with ⟨position, error, hfirst, hcheck⟩ | ⟨hall, hcheck⟩
  · rw [hempty] at hcheck
    rw [hcheck, Except.error.injEq]
    constructor
    · rintro rfl
      exact ⟨position, error, hfirst, rfl⟩
    · rintro ⟨position', error', hfirst', rfl⟩
      rw [hfirst.unique hfirst']
  · rw [hempty] at hcheck
    rw [hcheck]
    refine ⟨nofun, ?_⟩
    rintro ⟨position, error, hfirst, -⟩
    have hnone := hall position
    rw [hfirst.1] at hnone
    cases hnone

/-- The table of the peers has one entry for each. -/
theorem length_keys_newPeers {config : Config}
    (hdistinct : (config.peers.map PeerConfig.name).Nodup) :
    (newPeers config).keys.length = config.peers.length := by
  have hperm : (newPeers config).keys.Perm (config.peers.map PeerConfig.name) :=
    (List.perm_ext_iff_of_nodup (AList.keys_nodup _) hdistinct).mpr fun name => by
      rw [← AList.mem_keys, mem_newPeers hdistinct]
  rw [hperm.length_eq, List.length_map]

/-- Validation accepts exactly the configs that follow the rules; if only peers
break them, it reports the first entry that does; and of an accepted config the
manager's table holds every entry under its name and nothing else. -/
theorem validate_exactly [SocketAddrParser] (config : Config) :
    (config.validate = .ok () ↔ SettingsValid config ∧ PeersValid config.peers) ∧
      (SettingsValid config → ∀ message, config.validate = .error message ↔
        ∃ position error, FirstOffence [] config.peers position error ∧
          message = error.message) ∧
      (config.validate = .ok () →
        (newPeers config).keys.length = config.peers.length ∧
          (∀ peer ∈ config.peers, (newPeers config).lookup peer.name = some peer) ∧
          ∀ name peer, (newPeers config).lookup name = some peer →
            peer ∈ config.peers ∧ peer.name = name) := by
  refine ⟨validate_eq_ok_iff config, validate_eq_error, ?_⟩
  intro hvalid
  have hdistinct := ((validate_eq_ok_iff config).mp hvalid).2.distinct
  exact ⟨length_keys_newPeers hdistinct, fun peer hmem => collectPeers_of_mem hdistinct hmem,
    fun name peer hlookup => mem_of_collectPeers hlookup⟩

end TcpMonitor.Validation
