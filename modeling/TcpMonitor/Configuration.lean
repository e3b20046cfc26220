import Mathlib.Data.Finset.Insert

/-!
# Configuration and its validation

The config file after parsing, and the rules `Config::validate` checks in
their order, each with its message.  Whether a string is a socket address is
decided by the standard library, so the parser of addresses is a parameter.
-/

namespace TcpMonitor.Configuration

/-- `[node]` section. -/
structure NodeConfig where
  name : String
  deriving DecidableEq

/-- `[server]` section. -/
structure ServerConfig where
  bind : String
  heartbeatPort : UInt16
  metricsPort : UInt16
  probePort : UInt16
  heartbeatRecvTimeout : UInt64
  probeIdleTimeout : UInt64
  deriving DecidableEq

/-- `[client]` section. -/
structure ClientConfig where
  heartbeatInterval : UInt64
  maxMisses : UInt32
  reconnectDelay : UInt64
  deriving DecidableEq

/-- One `[[peers]]` entry. -/
structure PeerConfig where
  name : String
  host : String
  heartbeatPort : UInt16
  deriving DecidableEq

/-- The whole config file. -/
structure Config where
  node : NodeConfig
  server : ServerConfig
  client : Option ClientConfig
  peers : List PeerConfig
  deriving DecidableEq

/-- Upper bound for every timing field, in seconds (one day). -/
def maxSeconds : UInt64 := 86400

/-- `str::parse::<SocketAddr>`: the address, or the error's text. -/
class SocketAddrParser where
  SocketAddr : Type
  parse : String → Except String SocketAddr

export SocketAddrParser (SocketAddr)

/-- Combine `server.bind` and a port into a socket address. -/
def bindAddr [SocketAddrParser] (host : String) (port : UInt16) :
    Except String SocketAddr :=
  (SocketAddrParser.parse (host ++ ":" ++ toString port)).mapError fun error =>
    "server.bind " ++ host.quote ++
      " is not an IP address (IPv6 needs brackets, e.g. \"[::]\"): " ++ error

/-- The nested loop over the ports: the first pair that collides. -/
def checkPorts : List (String × UInt16) → Except String Unit
  | [] => .ok ()
  | (name, port) :: others =>
      match others.find? fun other => other.2 == port with
      | some other =>
          .error ("server." ++ name ++ " and server." ++ other.1 ++
            " must not share port " ++ toString port)
      | none => checkPorts others

/-- One row of the table of timings: field, value, minimum. -/
def checkTiming : String × UInt64 × UInt64 → Except String Unit
  | (field, value, min) =>
      if value < min then .error (field ++ " must be at least " ++ toString min)
      else if value > maxSeconds then
        .error (field ++ " must be at most " ++ toString maxSeconds ++ " (one day)")
      else .ok ()

/-- The table of timings; it grows with the optional section. -/
def timings (config : Config) : List (String × UInt64 × UInt64) :=
  let server : List (String × UInt64 × UInt64) :=
    [("server.heartbeat_recv_timeout", config.server.heartbeatRecvTimeout, 1),
      ("server.probe_idle_timeout", config.server.probeIdleTimeout, 0)]
  match config.client with
  | none => server
  | some client => server ++
      [("client.heartbeat_interval", client.heartbeatInterval, 1),
        ("client.reconnect_delay", client.reconnectDelay, 1)]

/-- The loop over the peers; `seen` holds the names of the earlier entries. -/
def checkPeers (seen : Finset String) : List PeerConfig → Except String Unit
  | [] => .ok ()
  | peer :: others =>
      if peer.name.isEmpty then .error "every [[peers]] entry must have a non-empty name"
      else if peer.host.isEmpty then .error ("peer '" ++ peer.name ++ "' has an empty host")
      else if peer.name ∈ seen then .error ("duplicate peer name: '" ++ peer.name ++ "'")
      else checkPeers (insert peer.name seen) others

/-- `Config::validate`: the first violation, or success. -/
def Config.validate [SocketAddrParser] (config : Config) : Except String Unit := do
  if config.node.name.isEmpty then throw "node.name must not be empty"
  let _ ← bindAddr config.server.bind 0
  checkPorts [("heartbeat_port", config.server.heartbeatPort),
    ("metrics_port", config.server.metricsPort),
    ("probe_port", config.server.probePort)]
  (timings config).forM checkTiming
  checkPeers ∅ config.peers

/-- `toml::from_str::<Config>`: the config, or the error's text. -/
class TomlParser where
  fromStr : String → Except String Config

/-- `config::parse`. -/
def parse [SocketAddrParser] [TomlParser] (text : String) : Except String Config := do
  let cfg ← (TomlParser.fromStr text).mapError fun error => "parse: " ++ error
  cfg.validate
  return cfg

/-- `config::load`, given what reading the file at `path` has returned. -/
def load [SocketAddrParser] [TomlParser] (path : String) (contents : Except String String) :
    Except String Config := do
  let text ← contents.mapError fun error => "read " ++ path ++ ": " ++ error
  (parse text).mapError fun error => path ++ ": " ++ error

/-- Client settings whose timings `Config::validate` accepts. -/
structure AcceptedClientConfig extends ClientConfig where
  heartbeatInterval_accepted : 1 ≤ heartbeatInterval ∧ heartbeatInterval ≤ maxSeconds
  reconnectDelay_accepted : 1 ≤ reconnectDelay ∧ reconnectDelay ≤ maxSeconds

/-- Accepted settings for concrete runs. -/
def everySecond : AcceptedClientConfig where
  heartbeatInterval := 1
  maxMisses := 3
  reconnectDelay := 1
  heartbeatInterval_accepted := by decide
  reconnectDelay_accepted := by decide

/-- Two fallible steps succeed if both do. -/
theorem bind_eq_ok {Error First Second : Type} {first : Except Error First}
    {next : First → Except Error Second} {value : Second} :
    first.bind next = .ok value ↔ ∃ middle, first = .ok middle ∧ next middle = .ok value := by
  cases first with
  | error error =>
      refine ⟨nofun, ?_⟩
      rintro ⟨middle, hfirst, -⟩
      cases hfirst
  | ok middle =>
      refine ⟨fun hnext => ⟨middle, rfl, hnext⟩, ?_⟩
      rintro ⟨middle', hfirst, hnext⟩
      cases hfirst
      exact hnext

/-- A row passes if its value lies between its minimum and one day. -/
theorem checkTiming_eq_ok {row : String × UInt64 × UInt64} :
    checkTiming row = .ok () ↔ row.2.2 ≤ row.2.1 ∧ row.2.1 ≤ maxSeconds := by
  obtain ⟨field, value, min⟩ := row
  simp only [checkTiming]
  split
  · next hlow => exact ⟨nofun, fun hrange => absurd hlow (UInt64.not_lt.mpr hrange.1)⟩
  · next hmin =>
      split
      · next hhigh => exact ⟨nofun, fun hrange => absurd hhigh (UInt64.not_lt.mpr hrange.2)⟩
      · next hmax => exact ⟨fun _ => ⟨UInt64.not_lt.mp hmin, UInt64.not_lt.mp hmax⟩, fun _ => rfl⟩

theorem forM_checkTiming_eq_ok {rows : List (String × UInt64 × UInt64)} :
    rows.forM checkTiming = .ok () ↔ ∀ row ∈ rows, checkTiming row = .ok () := by
  induction rows with
  | nil => exact ⟨fun _ => nofun, fun _ => rfl⟩
  | cons head tail ih =>
      have hcons : (head :: tail).forM checkTiming =
          (checkTiming head).bind fun _ => tail.forM checkTiming := rfl
      rw [hcons, bind_eq_ok, List.forall_mem_cons, ← ih]
      exact ⟨fun ⟨_, hhead, htail⟩ => ⟨hhead, htail⟩, fun ⟨hhead, htail⟩ => ⟨(), hhead, htail⟩⟩

/-- The checks of `Config::validate` in their order. -/
theorem validate_eq [SocketAddrParser] (config : Config) :
    config.validate =
      if config.node.name.isEmpty then .error "node.name must not be empty"
      else (bindAddr config.server.bind 0).bind fun _ =>
        (checkPorts [("heartbeat_port", config.server.heartbeatPort),
          ("metrics_port", config.server.metricsPort),
          ("probe_port", config.server.probePort)]).bind fun _ =>
        ((timings config).forM checkTiming).bind fun _ => checkPeers ∅ config.peers := by
  rw [Config.validate]
  split
  · rfl
  · rfl

/-- A config is accepted if it passes each check. -/
theorem validate_eq_ok [SocketAddrParser] {config : Config} :
    config.validate = .ok () ↔ config.node.name ≠ "" ∧
      (∃ address, bindAddr config.server.bind 0 = .ok address) ∧
      checkPorts [("heartbeat_port", config.server.heartbeatPort),
        ("metrics_port", config.server.metricsPort),
        ("probe_port", config.server.probePort)] = .ok () ∧
      (∀ row ∈ timings config, row.2.2 ≤ row.2.1 ∧ row.2.1 ≤ maxSeconds) ∧
      checkPeers ∅ config.peers = .ok () := by
  have htimings : (∀ row ∈ timings config, row.2.2 ≤ row.2.1 ∧ row.2.1 ≤ maxSeconds) ↔
      (timings config).forM checkTiming = .ok () := by
    simp only [forM_checkTiming_eq_ok, checkTiming_eq_ok]
  rw [validate_eq, htimings]
  split
  · next hempty => exact ⟨nofun, fun hvalid => absurd (String.isEmpty_iff.mp hempty) hvalid.1⟩
  · next hnonempty =>
      simp only [bind_eq_ok]
      constructor
      · rintro ⟨address, hbind, _, hports, _, htable, hpeers⟩
        exact ⟨fun hempty => hnonempty (String.isEmpty_iff.mpr hempty), ⟨address, hbind⟩, hports,
          htable, hpeers⟩
      · rintro ⟨-, ⟨address, hbind⟩, hports, htable, hpeers⟩
        exact ⟨address, hbind, (), hports, (), htable, hpeers⟩

/-- The `[client]` section of an accepted config has timings within bounds. -/
theorem validate_client [SocketAddrParser] {config : Config} {client : ClientConfig}
    (hvalid : config.validate = .ok ()) (hclient : config.client = some client) :
    (1 ≤ client.heartbeatInterval ∧ client.heartbeatInterval ≤ maxSeconds) ∧
      (1 ≤ client.reconnectDelay ∧ client.reconnectDelay ≤ maxSeconds) := by
  obtain ⟨-, -, -, htimings, -⟩ := validate_eq_ok.mp hvalid
  have hinterval : ("client.heartbeat_interval", client.heartbeatInterval, 1) ∈
      timings config := by simp [timings, hclient]
  have hdelay : ("client.reconnect_delay", client.reconnectDelay, 1) ∈
      timings config := by simp [timings, hclient]
  exact ⟨htimings _ hinterval, htimings _ hdelay⟩

/-- The `[server]` section of an accepted config has timeouts within bounds. -/
theorem validate_server [SocketAddrParser] {config : Config} (hvalid : config.validate = .ok ()) :
    (1 ≤ config.server.heartbeatRecvTimeout ∧ config.server.heartbeatRecvTimeout ≤ maxSeconds) ∧
      config.server.probeIdleTimeout ≤ maxSeconds := by
  obtain ⟨-, -, -, htimings, -⟩ := validate_eq_ok.mp hvalid
  have hrecv : ("server.heartbeat_recv_timeout", config.server.heartbeatRecvTimeout, 1) ∈
      timings config := by cases hclient : config.client <;> simp [timings, hclient]
  have hidle : ("server.probe_idle_timeout", config.server.probeIdleTimeout, 0) ∈
      timings config := by cases hclient : config.client <;> simp [timings, hclient]
  exact ⟨htimings _ hrecv, (htimings _ hidle).2⟩

theorem mapError_eq_ok {Error Value : Type} {result : Except Error Value} {value : Value}
    {change : Error → Error} : result.mapError change = .ok value ↔ result = .ok value := by
  cases result with
  | error error => exact ⟨nofun, nofun⟩
  | ok value' => exact Iff.rfl

/-- What is loaded has been validated. -/
theorem validate_of_load [SocketAddrParser] [TomlParser] {path : String}
    {contents : Except String String} {config : Config} (hload : load path contents = .ok config) :
    config.validate = .ok () := by
  obtain ⟨text, -, hparse⟩ := bind_eq_ok.mp hload
  obtain ⟨config', -, hvalidate⟩ := bind_eq_ok.mp (mapError_eq_ok.mp hparse)
  obtain ⟨_, hvalid, heq⟩ := bind_eq_ok.mp hvalidate
  cases heq
  exact hvalid

/-- The `[client]` section as an accepted config carries it. -/
def acceptedClient [SocketAddrParser] {config : Config} {client : ClientConfig}
    (hvalid : config.validate = .ok ()) (hclient : config.client = some client) :
    AcceptedClientConfig where
  toClientConfig := client
  heartbeatInterval_accepted := (validate_client hvalid hclient).1
  reconnectDelay_accepted := (validate_client hvalid hclient).2

end TcpMonitor.Configuration
