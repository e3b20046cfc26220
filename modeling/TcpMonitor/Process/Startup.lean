import TcpMonitor.SocketAddress
import TcpMonitor.Validation
import TcpMonitor.WholeProcess

/-!
# Startup

What `main` does before it spawns anything: the command line, the config file,
and the three ports.  Validation tries `server.bind` with port 0 only, and the
ports are bound one after the other; still nothing but a refusal of the operating
system can keep the process from starting on a config that was loaded.
-/

namespace TcpMonitor.Startup

open TcpMonitor.Configuration hiding SocketAddr
open TcpMonitor.Validation
open TcpMonitor.SocketAddress

/-! ## The command line -/

/-- Config file used when `--config` is not given. -/
def defaultConfigPath : String := "/etc/tcp-monitor/config.toml"

/-- What the command line asks for. -/
inductive Command where
  | run (path : String)
  | help
  deriving DecidableEq

/-- The command, and the arguments behind it. -/
def readCommand : List String → Except String (Command × List String)
  | [] => .ok (.run defaultConfigPath, [])
  | arg :: args =>
      if arg = "--config" then
        match args with
        | [] => .error "--config requires a path argument"
        | path :: args => .ok (.run path, args)
      else if arg = "--help" ∨ arg = "-h" then .ok (.help, args)
      else .error ("unknown argument '" ++ arg ++ "'")

/-- `parse_args`, without the program name. -/
def parseArgs (args : List String) : Except String Command := do
  let (command, rest) ← readCommand args
  match rest with
  | [] => return command
  | extra :: _ => throw ("unexpected argument '" ++ extra ++ "'")

/-! ## The ports -/

/-- Why a listener could not be bound: `server.bind` is not an address, or the
operating system refused it. -/
inductive BindError (OsError : Type) where
  | invalidInput (message : String)
  | refused (what : String) (address : SocketAddr) (error : OsError)
  deriving DecidableEq

/-- `TcpListener::bind`, for a process that has bound some addresses already. -/
abbrev TcpBind (OsError : Type) := List SocketAddr → SocketAddr → Except OsError Unit

/-- The addresses of the bound sockets. -/
structure Listeners where
  heartbeat : SocketAddr
  probe : SocketAddr
  deriving DecidableEq

section Binding

variable {OsError : Type}

/-- One listener; the error names the field and the address. -/
def bindOne (tcpBind : TcpBind OsError) (bound : List SocketAddr) (host : String) (port : UInt16)
    (what : String) : Except (BindError OsError) SocketAddr := do
  let address ← (bindAddr host port).mapError .invalidInput
  (tcpBind bound address).mapError (.refused what address)
  return address

/-- `Listeners::bind`. -/
def Listeners.bind (tcpBind : TcpBind OsError) (cfg : ServerConfig) :
    Except (BindError OsError) Listeners := do
  let heartbeat ← bindOne tcpBind [] cfg.bind cfg.heartbeatPort "heartbeat_port"
  let probe ← bindOne tcpBind [heartbeat] cfg.bind cfg.probePort "probe_port"
  return ⟨heartbeat, probe⟩

/-- The metrics server listens on every IPv4 address, whatever `bind` says. -/
def metricsAddr (cfg : ServerConfig) : SocketAddr :=
  .v4 ⟨0, 0, 0, 0⟩ cfg.metricsPort

@[simp]
theorem port_metricsAddr (cfg : ServerConfig) : (metricsAddr cfg).port = cfg.metricsPort := rfl

/-! ## Up to the first spawn -/

/-- Why the process ends before it has spawned anything. -/
inductive StartupError (OsError : Type) where
  | arguments (message : String)
  | config (message : String)
  | server (error : BindError OsError)
  | metrics (address : SocketAddr) (error : OsError)
  deriving DecidableEq

/-- The address that the operating system refused, and its error. -/
def StartupError.refusal : StartupError OsError → Option (SocketAddr × OsError)
  | server (.refused _ address error) | metrics address error => some (address, error)
  | _ => none

/-- How `main` leaves its first part. -/
inductive Launch (OsError : Type) where
  | help
  | failed (error : StartupError OsError)
  | started (path : String) (config : Config) (listeners : Listeners) (metrics : SocketAddr)
  deriving DecidableEq

variable [TomlParser]

/-- `main` with a config path. -/
def startWith (tcpBind : TcpBind OsError) (files : String → Except String String)
    (path : String) : Launch OsError :=
  match load path (files path) with
  | .error message => .failed (.config message)
  | .ok config =>
      match Listeners.bind tcpBind config.server with
      | .error error => .failed (.server error)
      | .ok listeners =>
          let metrics := metricsAddr config.server
          match tcpBind [listeners.heartbeat, listeners.probe] metrics with
          | .error error => .failed (.metrics metrics error)
          | .ok () => .started path config listeners metrics

/-- `main` until it spawns its first task. -/
def startup (tcpBind : TcpBind OsError) (files : String → Except String String)
    (args : List String) : Launch OsError :=
  match parseArgs args with
  | .error message => .failed (.arguments message)
  | .ok .help => .help
  | .ok (.run path) => startWith tcpBind files path

end Binding

/-! ## What the command line accepts -/

theorem parseArgs_eq_run {args : List String} {path : String} :
    parseArgs args = .ok (.run path) ↔
      args = [] ∧ path = defaultConfigPath ∨ args = ["--config", path] := by
  constructor
  · intro hparse
    obtain ⟨⟨command, rest⟩, hcommand, hrest⟩ := bind_eq_ok.mp hparse
    cases rest with
    | cons extra others => cases hrest
    | nil =>
        cases hrest
        cases args with
        | nil =>
            cases hcommand
            exact Or.inl ⟨rfl, rfl⟩
        | cons arg args =>
            simp only [readCommand] at hcommand
            split at hcommand
            · next hconfig =>
                subst hconfig
                cases args with
                | nil => cases hcommand
                | cons path' args =>
                    cases hcommand
                    exact Or.inr rfl
            · split at hcommand <;> cases hcommand
  · rintro (⟨rfl, rfl⟩ | rfl)
    · rfl
    · rfl

/-! ## What can go wrong after loading -/

section Outcome

variable {OsError : Type} [TomlParser] {tcpBind : TcpBind OsError} {bound : List SocketAddr}
  {files : String → Except String String} {path : String} {config : Config}

omit [TomlParser] in
/-- The address of a host that is an IP address goes to the operating system. -/
theorem bindOne_eq {host what : String} {ip : SocketAddr} {port : UInt16}
    (hhost : literalIp host = some ip) :
    bindOne tcpBind bound host port what =
      match tcpBind bound (ip.withPort port) with
      | .error error => .error (.refused what (ip.withPort port) error)
      | .ok () => .ok (ip.withPort port) := by
  rw [bindOne, bindAddr_eq, hhost]
  cases hbind : tcpBind bound (ip.withPort port) with
  | error error => simp [Except.mapError, bind, Except.bind, hbind]
  | ok _ => simp [Except.mapError, bind, Except.bind, hbind, pure, Except.pure]

/-- Validation has found the address, and three different ports. -/
theorem literalIp_of_load (hload : load path (files path) = .ok config) :
    (∃ ip, literalIp config.server.bind = some ip) ∧
      config.server.heartbeatPort ≠ config.server.metricsPort ∧
      config.server.heartbeatPort ≠ config.server.probePort ∧
      config.server.metricsPort ≠ config.server.probePort := by
  have hsettings := ((validate_eq_ok_iff config).mp (validate_of_load hload)).1
  refine ⟨?_, hsettings.portsDiffer⟩
  obtain ⟨address, hbind⟩ := hsettings.bindIsIp
  rw [bindAddr_eq] at hbind
  cases hliteral : literalIp config.server.bind with
  | none =>
      rw [hliteral] at hbind
      cases hbind
  | some ip => exact ⟨ip, rfl⟩

/-- The three requests, in their order. -/
theorem startWith_eq {ip : SocketAddr} (hload : load path (files path) = .ok config)
    (hip : literalIp config.server.bind = some ip) :
    startWith tcpBind files path =
      let heartbeat := ip.withPort config.server.heartbeatPort
      let probe := ip.withPort config.server.probePort
      let metrics := metricsAddr config.server
      match tcpBind [] heartbeat with
      | .error error => .failed (.server (.refused "heartbeat_port" heartbeat error))
      | .ok () =>
          match tcpBind [heartbeat] probe with
          | .error error => .failed (.server (.refused "probe_port" probe error))
          | .ok () =>
              match tcpBind [heartbeat, probe] metrics with
              | .error error => .failed (.metrics metrics error)
              | .ok () => .started path config ⟨heartbeat, probe⟩ metrics := by
  simp only [startWith, hload, Listeners.bind, bindOne_eq hip]
  cases hheartbeat : tcpBind [] (ip.withPort config.server.heartbeatPort) with
  | error error => rfl
  | ok _ =>
      cases hprobe : tcpBind [ip.withPort config.server.heartbeatPort]
          (ip.withPort config.server.probePort) with
      | error error => simp [bind, Except.bind, hprobe]
      | ok _ => simp [bind, Except.bind, hprobe, pure, Except.pure]

/-- The process starts, or the operating system has refused an address whose port
the process does not hold. -/
theorem startWith_cases {ip : SocketAddr} (hload : load path (files path) = .ok config)
    (hip : literalIp config.server.bind = some ip) :
    let listeners : Listeners :=
      ⟨ip.withPort config.server.heartbeatPort, ip.withPort config.server.probePort⟩
    let metrics := metricsAddr config.server
    startWith tcpBind files path = .started path config listeners metrics ∨
      ∃ error bound address osError, startWith tcpBind files path = .failed error ∧
        error.refusal = some (address, osError) ∧
        address ∈ [listeners.heartbeat, listeners.probe, metrics] ∧
        address.port ∉ bound.map SocketAddr.port ∧ tcpBind bound address = .error osError := by
  obtain ⟨-, hmetrics, hprobe, hboth⟩ := literalIp_of_load hload
  dsimp only
  rw [startWith_eq hload hip]
  dsimp only
  split
  · next error hrefused =>
      exact Or.inr ⟨_, [], _, error, rfl, rfl, by simp, by simp, hrefused⟩
  · split
    · next error hrefused =>
        exact Or.inr ⟨_, _, _, error, rfl, rfl, by simp, by simpa using hprobe.symm, hrefused⟩
    · split
      · next error hrefused =>
          refine Or.inr ⟨_, _, _, error, rfl, rfl, by simp, ?_, hrefused⟩
          simpa using ⟨hmetrics.symm, hboth⟩
      · exact Or.inl rfl

end Outcome

/-! ## A start -/

section Witness

/-- The config file of a node that only listens, on the loopback address. -/
def loopbackFile : String :=
  "[node]\nname = \"n1\"\n" ++
  "[server]\nbind = \"127.0.0.1\"\nheartbeat_port = 9700\nmetrics_port = 9702\n" ++
  "probe_port = 9701\nheartbeat_recv_timeout = 90\nprobe_idle_timeout = 30\n"

/-- What the file says. -/
def loopback : Config where
  node := ⟨"n1"⟩
  server := ⟨"127.0.0.1", 9700, 9702, 9701, 90, 30⟩
  client := none
  peers := []

/-- The parser on this file. -/
local instance : TomlParser where
  fromStr text := if text = loopbackFile then .ok loopback else .error "TOML parse error"

/-- An operating system that refuses only the ports of the process itself. -/
def refusesOwnPorts : TcpBind String := fun bound address =>
  if address.port ∈ bound.map SocketAddr.port then .error "address in use" else .ok ()

end Witness

end TcpMonitor.Startup
