import FluxGate.Builtins

/-!
# `config`: defaults, validation, loading and the manager

A `Config` holds what `yaml.Unmarshal` decoded: for every key the file leaves out, the Go zero
value. Ports are Go `int`s, durations `time.Duration` counts of nanoseconds, and the TLS section
is a pointer, `none` for nil. The file system and the YAML decoder are outside the repository:
`Load` takes what `os.ReadFile` returned, and the decoder is a parameter, `unmarshal`. So are the
two functions of the standard library that the checks and their messages call,
`Duration.String` (`durationString`) and `strings.ToLower` (`toLower`). The cluster section is
only passed along and is left out, as are the getters, which read one field each. The manager's
lock is not modelled: each of its methods is one step.
-/

namespace FluxGate

structure ServerConfig where
  port : GoInt
  metricsPort : GoInt
  gossipPort : GoInt
  hotReload : Bool
  deriving DecidableEq, Repr

structure HealthConfig where
  interval : GoInt
  timeout : GoInt
  path : String
  deriving DecidableEq, Repr

structure TimeoutConfig where
  read : GoInt
  write : GoInt
  idle : GoInt
  deriving DecidableEq, Repr

structure LoggingConfig where
  level : String
  format : String
  deriving DecidableEq, Repr

structure TLS where
  certFile : String
  keyFile : String
  deriving DecidableEq, Repr

structure Config where
  server : ServerConfig
  tls : Option TLS
  healthCheck : HealthConfig
  timeouts : TimeoutConfig
  logging : LoggingConfig
  deriving DecidableEq, Repr

def Config.empty : Config := ⟨⟨0, 0, 0, false⟩, none, ⟨0, 0, ""⟩, ⟨0, 0, 0⟩, ⟨"", ""⟩⟩

def second : GoInt := 1000000000

/-- The config `Load` returns when the file does not exist. -/
def defaultConfig : Config where
  server := ⟨8080, 9090, 7946, true⟩
  tls := none
  healthCheck := ⟨10 * second, 5 * second, "/health"⟩
  timeouts := ⟨30 * second, 30 * second, 120 * second⟩
  logging := ⟨"info", "text"⟩

def orDefault {α : Type} [DecidableEq α] (zero x d : α) : α := if x = zero then d else x

/-- `setDefaults()`: every field left at its zero value takes its default; `HotReload` has
none. -/
def Config.setDefaults (c : Config) : Config :=
  { c with
    server := { c.server with
      port := orDefault 0 c.server.port 8080
      metricsPort := orDefault 0 c.server.metricsPort 9090
      gossipPort := orDefault 0 c.server.gossipPort 7946 }
    healthCheck := {
      interval := orDefault 0 c.healthCheck.interval (10 * second)
      timeout := orDefault 0 c.healthCheck.timeout (5 * second)
      path := orDefault "" c.healthCheck.path "/health" }
    timeouts := {
      read := orDefault 0 c.timeouts.read (30 * second)
      write := orDefault 0 c.timeouts.write (30 * second)
      idle := orDefault 0 c.timeouts.idle (120 * second) }
    logging := {
      level := orDefault "" c.logging.level "info"
      format := orDefault "" c.logging.format "text" } }

/-- `if p < 1 || p > 65535`, for the port named `name`. -/
def checkPort (name : String) (p : GoInt) : Except String Unit :=
  if p.toInt < 1 ∨ 65535 < p.toInt then
    .error (name ++ " port must be between 1 and 65535, got " ++ toString p.toInt)
  else .ok ()

/-- `if a == b` for two ports that must differ; the message prints the first. -/
def checkDistinct (nameA nameB : String) (a b : GoInt) : Except String Unit :=
  if a = b then
    .error (nameA ++ " port and " ++ nameB ++ " port cannot be the same: " ++ toString a.toInt)
  else .ok ()

/-- `if d < time.Second`, for the duration named `name`. -/
def checkAtLeastSecond (durationString : GoInt → String) (name : String) (d : GoInt) :
    Except String Unit :=
  if d.toInt < second.toInt then .error (name ++ " must be at least 1s, got " ++ durationString d)
  else .ok ()

/-- `if !valid[strings.ToLower(s)]`, for the log setting `what` and its accepted values. -/
def checkOneOf (toLower : String → String) (what : String) (valid : List String) (s : String) :
    Except String Unit :=
  if toLower s ∈ valid then .ok ()
  else .error ("invalid log " ++ what ++ " '" ++ s ++ "', must be one of: " ++ ", ".intercalate valid)

/-- `Validate()`: the checks in the order of the source, the first that fails giving the error. -/
def Config.validate (durationString : GoInt → String) (toLower : String → String) (c : Config) :
    Except String Unit := do
  checkPort "server" c.server.port
  checkPort "metrics" c.server.metricsPort
  checkPort "gossip" c.server.gossipPort
  checkDistinct "server" "metrics" c.server.port c.server.metricsPort
  checkDistinct "server" "gossip" c.server.port c.server.gossipPort
  checkDistinct "metrics" "gossip" c.server.metricsPort c.server.gossipPort
  checkAtLeastSecond durationString "health check interval" c.healthCheck.interval
  checkAtLeastSecond durationString "health check timeout" c.healthCheck.timeout
  if c.healthCheck.interval.toInt ≤ c.healthCheck.timeout.toInt then
    throw ("health check timeout (" ++ durationString c.healthCheck.timeout ++
      ") must be less than interval (" ++ durationString c.healthCheck.interval ++ ")")
  checkAtLeastSecond durationString "read timeout" c.timeouts.read
  checkAtLeastSecond durationString "write timeout" c.timeouts.write
  checkAtLeastSecond durationString "idle timeout" c.timeouts.idle
  checkOneOf toLower "level" ["debug", "info", "warn", "error"] c.logging.level
  checkOneOf toLower "format" ["text", "json"] c.logging.format
  match c.tls with
  | none => pure ()
  | some t =>
    if t.certFile = "" then throw "tls cert_file is required when TLS is enabled"
    if t.keyFile = "" then throw "tls key_file is required when TLS is enabled"

def PortOk (p : GoInt) : Prop := 1 ≤ p.toInt ∧ p.toInt ≤ 65535

instance (p : GoInt) : Decidable (PortOk p) := inferInstanceAs (Decidable (_ ∧ _))

/-- What `Validate` accepts, one field per check. -/
structure Config.Valid (toLower : String → String) (c : Config) : Prop where
  port : PortOk c.server.port
  metricsPort : PortOk c.server.metricsPort
  gossipPort : PortOk c.server.gossipPort
  port_ne_metricsPort : c.server.port ≠ c.server.metricsPort
  port_ne_gossipPort : c.server.port ≠ c.server.gossipPort
  metricsPort_ne_gossipPort : c.server.metricsPort ≠ c.server.gossipPort
  interval : second.toInt ≤ c.healthCheck.interval.toInt
  timeout : second.toInt ≤ c.healthCheck.timeout.toInt
  timeout_lt_interval : c.healthCheck.timeout.toInt < c.healthCheck.interval.toInt
  read : second.toInt ≤ c.timeouts.read.toInt
  write : second.toInt ≤ c.timeouts.write.toInt
  idle : second.toInt ≤ c.timeouts.idle.toInt
  level : toLower c.logging.level ∈ ["debug", "info", "warn", "error"]
  format : toLower c.logging.format ∈ ["text", "json"]
  tls : ∀ t, c.tls = some t → t.certFile ≠ "" ∧ t.keyFile ≠ ""

@[simp] theorem Except.throw_eq_error {ε α : Type} (e : ε) : (throw e : Except ε α) = .error e := rfl

@[simp] theorem Except.pure_eq_ok {ε α : Type} (a : α) : (pure a : Except ε α) = .ok a := rfl

theorem Except.error_bind {ε α β : Type} (e : ε) (f : α → Except ε β) :
    (Except.error e >>= f : Except ε β) = .error e := rfl

theorem Except.bind_eq_ok {ε α : Type} {x : Except ε Unit} {f : Unit → Except ε α} {a : α} :
    x >>= f = .ok a ↔ x = .ok () ∧ f () = .ok a := by
  cases x <;> simp [bind, Except.bind]

theorem Except.ite_error_eq_ok {ε α : Type} (p : Prop) [Decidable p] (e : ε) (x : Except ε α)
    (a : α) : (if p then .error e else x) = .ok a ↔ ¬p ∧ x = .ok a := by
  split <;> simp_all

@[simp] theorem checkPort_eq_ok (name : String) (p : GoInt) :
    checkPort name p = .ok () ↔ PortOk p := by
  unfold checkPort PortOk
  split <;> simp <;> omega

@[simp] theorem checkDistinct_eq_ok (nameA nameB : String) (a b : GoInt) :
    checkDistinct nameA nameB a b = .ok () ↔ a ≠ b := by
  unfold checkDistinct
  split <;> simp_all

@[simp] theorem checkAtLeastSecond_eq_ok (durationString : GoInt → String) (name : String)
    (d : GoInt) : checkAtLeastSecond durationString name d = .ok () ↔ second.toInt ≤ d.toInt := by
  unfold checkAtLeastSecond
  split <;> simp <;> omega

@[simp] theorem checkOneOf_eq_ok (toLower : String → String) (what : String) (valid : List String)
    (s : String) : checkOneOf toLower what valid s = .ok () ↔ toLower s ∈ valid := by
  unfold checkOneOf
  split <;> simp_all

theorem Config.valid_iff (toLower : String → String) (c : Config) : c.Valid toLower ↔
    PortOk c.server.port ∧ PortOk c.server.metricsPort ∧ PortOk c.server.gossipPort ∧
    c.server.port ≠ c.server.metricsPort ∧ c.server.port ≠ c.server.gossipPort ∧
    c.server.metricsPort ≠ c.server.gossipPort ∧
    second.toInt ≤ c.healthCheck.interval.toInt ∧ second.toInt ≤ c.healthCheck.timeout.toInt ∧
    c.healthCheck.timeout.toInt < c.healthCheck.interval.toInt ∧
    second.toInt ≤ c.timeouts.read.toInt ∧ second.toInt ≤ c.timeouts.write.toInt ∧
    second.toInt ≤ c.timeouts.idle.toInt ∧
    toLower c.logging.level ∈ ["debug", "info", "warn", "error"] ∧
    toLower c.logging.format ∈ ["text", "json"] ∧
    ∀ t, c.tls = some t → t.certFile ≠ "" ∧ t.keyFile ≠ "" :=
  ⟨fun ⟨h1, h2, h3, h4, h5, h6, h7, h8, h9, h10, h11, h12, h13, h14, h15⟩ =>
    ⟨h1, h2, h3, h4, h5, h6, h7, h8, h9, h10, h11, h12, h13, h14, h15⟩,
   fun ⟨h1, h2, h3, h4, h5, h6, h7, h8, h9, h10, h11, h12, h13, h14, h15⟩ =>
    ⟨h1, h2, h3, h4, h5, h6, h7, h8, h9, h10, h11, h12, h13, h14, h15⟩⟩

theorem validate_eq_ok_iff (durationString : GoInt → String) (toLower : String → String)
    (c : Config) : c.validate durationString toLower = .ok () ↔ c.Valid toLower := by
  rw [Config.valid_iff]
  obtain ⟨server, _ | t, healthCheck, timeouts, logging⟩ := c <;>
  simp [Config.validate, Except.bind_eq_ok, Except.error_bind, Except.ite_error_eq_ok]

/-- What `os.ReadFile(filename)` gave `Load`: the file's text, no file, or another error. -/
inductive ReadResult
  | ok (data : String)
  | notExist
  | error (err : String)
  deriving DecidableEq, Repr

section Load

variable (durationString : GoInt → String) (toLower : String → String)
  (unmarshal : String → Except String Config)

def load : ReadResult → Except String Config
  | .notExist => .ok defaultConfig
  | .error err => .error ("reading config file: " ++ err)
  | .ok data =>
    match unmarshal data with
    | .error err => .error ("parsing config: " ++ err)
    | .ok cfg =>
      match cfg.setDefaults.validate durationString toLower with
      | .error err => .error ("invalid config: " ++ err)
      | .ok () => .ok cfg.setDefaults

variable {durationString toLower unmarshal}

theorem load_ok_eq_ok {data : String} {c : Config} :
    load durationString toLower unmarshal (.ok data) = .ok c ↔
      ∃ cfg, unmarshal data = .ok cfg ∧ c = cfg.setDefaults ∧ cfg.setDefaults.Valid toLower := by
  simp only [load]
  split
  · simp_all
  · split <;> simp_all [← validate_eq_ok_iff durationString, eq_comm (a := c)]

/-- The two health-check durations are defaulted apart and then compared: a file that sets the
interval to at most the default timeout of 5s and leaves the timeout out, or sets the timeout to
at least the default interval of 10s and leaves the interval out, is always rejected. -/
theorem load_rejects_one_sided_health_check {data : String} {cfg : Config}
    (hu : unmarshal data = .ok cfg)
    (hc : (cfg.healthCheck.timeout = 0 ∧ cfg.healthCheck.interval ≠ 0 ∧
        cfg.healthCheck.interval.toInt ≤ (5 * second).toInt) ∨
      (cfg.healthCheck.interval = 0 ∧ (10 * second).toInt ≤ cfg.healthCheck.timeout.toInt)) :
    ∃ err, load durationString toLower unmarshal (.ok data) = .error err := by
  cases hl : load durationString toLower unmarshal (.ok data) with
  | error err => exact ⟨err, rfl⟩
  | ok c =>
    obtain ⟨cfg', hu', -, hv⟩ := load_ok_eq_ok.mp hl
    cases hu.symm.trans hu'
    have hlt : (orDefault 0 cfg.healthCheck.timeout (5 * second)).toInt <
        (orDefault 0 cfg.healthCheck.interval (10 * second)).toInt := hv.timeout_lt_interval
    rcases hc with ⟨ht, hi, hle⟩ | ⟨hi, hle⟩
    · simp only [orDefault, ht, hi, if_true, if_false] at hlt
      omega
    · have ht : cfg.healthCheck.timeout ≠ 0 := by
        rintro h
        rw [h] at hle
        exact absurd hle (by decide)
      simp only [orDefault, ht, hi, if_true, if_false] at hlt
      omega

theorem load_rejects_one_sided_health_check_3s :
    (fun _ => .ok { Config.empty with healthCheck := ⟨3 * second, 0, ""⟩ } :
        String → Except String Config) "" = .ok { Config.empty with healthCheck := ⟨3 * second, 0, ""⟩ } ∧
      ((0 : GoInt) = 0 ∧ 3 * second ≠ 0 ∧ (3 * second).toInt ≤ (5 * second).toInt) ∧
      ∃ err, load (fun _ => "") id (fun _ => .ok { Config.empty with healthCheck := ⟨3 * second, 0, ""⟩ })
        (.ok "") = .error err :=
  have hc : (0 : GoInt) = 0 ∧ 3 * second ≠ 0 ∧ (3 * second).toInt ≤ (5 * second).toInt :=
    ⟨rfl, by decide, by decide⟩
  ⟨rfl, hc, load_rejects_one_sided_health_check rfl (.inl hc)⟩

end Load

/-- `config.Manager`: the config `Get` returns, and the listeners in the order they subscribed,
each named by a number. -/
structure Manager where
  config : Config
  listeners : List Nat
  deriving DecidableEq, Repr

def Manager.new : Manager := ⟨.empty, []⟩

section Manager

variable (durationString : GoInt → String) (toLower : String → String)
  (unmarshal : String → Except String Config)

/-- `m.Load(filename)`: the error, or the manager after it and the calls `go listener(cfg)` it
starts. -/
def Manager.load (m : Manager) (r : ReadResult) : Except String (Manager × List (Nat × Config)) :=
  match FluxGate.load durationString toLower unmarshal r with
  | .error err => .error err
  | .ok cfg => .ok ({ m with config := cfg }, m.listeners.map fun listener => (listener, cfg))

def Manager.subscribe (m : Manager) (listener : Nat) : Manager :=
  { m with listeners := m.listeners ++ [listener] }

def Manager.get (m : Manager) : Config := m.config

/-- The managers a program reaches, with whether a `Load` has succeeded; a failed `Load` leaves
the manager as it was. -/
inductive Manager.Reachable : Bool → Manager → Prop
  | new : Reachable false .new
  | load {loaded : Bool} {m m' : Manager} {calls : List (Nat × Config)} (r : ReadResult) :
      Reachable loaded m → m.load durationString toLower unmarshal r = .ok (m', calls) → Reachable true m'
  | subscribe {loaded : Bool} {m : Manager} (listener : Nat) :
      Reachable loaded m → Reachable loaded (m.subscribe listener)

variable {durationString toLower unmarshal}

end Manager

end FluxGate
