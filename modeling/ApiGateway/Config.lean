import Mathlib.Data.String.Defs

/-!
# ApiGateway.Config

The configuration the gateway loads (`internal/config`), with the fields the modelled code
reads, and `config.Manager`, which holds the active configuration.

`Load` reads the file, unmarshals it over the defaults and validates it; only a configuration
that passes `validateConfig` becomes active, and a failed load leaves the manager as it was.
`Reload` is `Load` of the file in use, and the file watcher calls `Reload`. The file as viper
decodes it is the input here: unreadable, malformed, or a `Config` with the defaults filled in.

Maps of the configuration are association lists: the code only iterates them or reads one key,
and their keys are distinct.

`validateConfig` checks the port, the JWT secret and, when rate limiting is on, the default
rule's request count; nothing else of the configuration is checked.

* `get_validated`: after any sequence of `Load` and `Reload` calls from `NewManager`, the active
  configuration passes those three checks.
* `loose_config_loads`: a configuration whose per-user rule, default window, service URLs and
  breaker settings are all unusable loads and becomes active.
-/

namespace ApiGateway

/-- `CORSConfig`. -/
structure CORSConfig where
  enabled : Bool
  allowedOrigins : List String
  allowedMethods : List String
  allowedHeaders : List String
  deriving DecidableEq, Repr

/-- `ServerConfig`: the port and the CORS settings. -/
structure ServerConfig where
  port : Int
  cors : CORSConfig
  deriving DecidableEq, Repr

/-- `JWTConfig`. -/
structure JWTConfig where
  secret : String
  expirationTime : Int
  refreshTime : Int
  issuer : String
  audience : String
  algorithm : String
  deriving DecidableEq, Repr

/-- `RateLimitRule`: `requests` per `window`, and the `burst`. -/
structure RateLimitRule where
  requests : Int
  window : Int
  burst : Int
  deriving DecidableEq, Repr

/-- `RateLimitConfig`. -/
structure RateLimitConfig where
  enabled : Bool
  algorithm : String
  default : RateLimitRule
  perUser : List (String × RateLimitRule)
  perService : List (String × RateLimitRule)
  deriving DecidableEq, Repr

/-- `CircuitBreakerConfig`. -/
structure CircuitBreakerConfig where
  enabled : Bool
  failureThreshold : Int
  recoveryTimeout : Int
  halfOpenRequests : Int
  deriving DecidableEq, Repr

/-- `ServiceConfig`. -/
structure ServiceConfig where
  urls : List String
  loadBalancer : String
  timeout : Int
  retries : Int
  circuitBreaker : CircuitBreakerConfig
  deriving DecidableEq, Repr

/-- `Config`: the fields the gateway reads. -/
structure Config where
  server : ServerConfig
  jwt : JWTConfig
  rateLimit : RateLimitConfig
  services : List (String × ServiceConfig)
  prometheusEnabled : Bool
  deriving DecidableEq, Repr

namespace Config

/-- What `validateConfig` requires of a configuration. -/
structure Validated (c : Config) : Prop where
  port : 0 < c.server.port ∧ c.server.port ≤ 65535
  secret : c.jwt.secret ≠ ""
  requests : c.rateLimit.enabled = true → 0 < c.rateLimit.default.requests

/-- `validateConfig`: the first check that fails, with its message. -/
def validateConfig (c : Config) : Option String :=
  if c.server.port ≤ 0 ∨ 65535 < c.server.port then
    some ("invalid server port: " ++ toString c.server.port)
  else if c.jwt.secret = "" then some "JWT secret is required"
  else if c.rateLimit.enabled ∧ c.rateLimit.default.requests ≤ 0 then
    some "rate limit requests must be positive"
  else none

theorem validateConfig_eq_none {c : Config} : validateConfig c = none ↔ Validated c := by
  unfold validateConfig
  constructor
  · intro h
    split at h
    · cases h
    rename_i hp
    split at h
    · cases h
    rename_i hs
    split at h
    · cases h
    rename_i hr
    exact ⟨by omega, hs, fun he => Int.not_le.mp fun hn => hr ⟨he, hn⟩⟩
  · rintro ⟨hp, hs, hr⟩
    rw [if_neg (by omega), if_neg hs, if_neg (fun h => absurd (hr h.1) (by omega))]

/-- The configuration file as viper reads and decodes it. -/
inductive File where
  | unreadable (err : String)
  | malformed (err : String)
  | decoded (c : Config)
  deriving DecidableEq, Repr

/-- `config.Manager`: the active configuration, none before the first successful load. -/
structure Manager where
  config : Option Config
  deriving DecidableEq, Repr

namespace Manager

/-- `NewManager`. -/
def new : Manager := ⟨none⟩

/-- The configuration `Load` reads from the file `f` and validates, or its error. -/
def loadConfig : File → Except String Config
  | .unreadable e => .error ("failed to read config file: " ++ e)
  | .malformed e => .error ("failed to unmarshal config: " ++ e)
  | .decoded c =>
    match validateConfig c with
    | some e => .error ("config validation failed: " ++ e)
    | none => .ok c

/-- `Load(path)` of the file `f`: the manager with `f`'s configuration active, or the error. -/
def load (_m : Manager) (f : File) : Except String Manager := (loadConfig f).map fun c => ⟨some c⟩

/-- `Get()`. -/
def get (m : Manager) : Option Config := m.config

/-- `Reload()`: `Load` of the file in use, which now reads `f`. -/
def reload (m : Manager) (f : File) : Except String Manager := m.load f

/-- The manager after a reload by the file watcher: a failed reload is logged and changes
nothing. -/
def watchReload (m : Manager) (f : File) : Manager :=
  match m.reload f with
  | .ok m' => m'
  | .error _ => m

theorem load_ok {m m' : Manager} {f : File} (h : m.load f = .ok m') :
    ∃ c, f = .decoded c ∧ validateConfig c = none ∧ m' = ⟨some c⟩ := by
  cases f with
  | unreadable e => cases h
  | malformed e => cases h
  | decoded c =>
    simp only [load, loadConfig] at h
    split at h
    · cases h
    · cases h; exact ⟨c, rfl, ‹_›, rfl⟩

/-- A call on the manager: `Load` of a file, or `Reload` once the file in use reads `f`. -/
inductive Call where
  | load (f : File)
  | reload (f : File)
  deriving DecidableEq, Repr

/-- The manager after a call; a failed call returns its error and leaves the manager as it was. -/
def call (m : Manager) : Call → Manager
  | .load f => match m.load f with
    | .ok m' => m'
    | .error _ => m
  | .reload f => m.watchReload f

/-- The manager after each call of `calls` in turn. -/
def run (m : Manager) (calls : List Call) : Manager := calls.foldl call m

/-- Every configuration a manager holds passed `validateConfig`. -/
def Valid (m : Manager) : Prop := ∀ c, m.get = some c → Validated c

theorem load_valid {m m' : Manager} {f : File} (h : m.load f = .ok m') : m'.Valid := by
  obtain ⟨c, -, hc, rfl⟩ := load_ok h
  rintro _ ⟨⟩
  exact validateConfig_eq_none.mp hc

/-- A call keeps every held configuration validated. -/
theorem call_valid {m : Manager} (hm : m.Valid) (k : Call) : (m.call k).Valid := by
  cases k with
  | load f | reload f =>
    simp only [call, watchReload, reload]
    split
    · exact load_valid ‹_›
    · exact hm

theorem run_valid {m : Manager} (hm : m.Valid) (calls : List Call) : (m.run calls).Valid := by
  induction calls generalizing m with
  | nil => exact hm
  | cons k calls ih => exact ih (call_valid hm k)

/-- From `NewManager`, whatever `Load` and `Reload` read, the active configuration has a port in
`[1, 65535]`, a JWT secret and, with rate limiting on, a positive default request count. -/
theorem get_validated (calls : List Call) {c : Config} (h : (new.run calls).get = some c) :
    Validated c :=
  run_valid (fun _ h => by cases h) calls c h

end Manager

/-- A configuration that passes `validateConfig`: a per-user rule of no request, a default rule
of a zero window, a service with no URL, and an enabled breaker of threshold and timeout zero. -/
def looseConfig : Config :=
  { server := ⟨8080, ⟨false, [], [], []⟩⟩
    jwt := ⟨"secret", 3600, 86400, "api-gateway", "api-gateway-users", "HS256"⟩
    rateLimit := ⟨true, "sliding_window", ⟨100, 0, 10⟩, [("alice", ⟨0, -1, 0⟩)], []⟩
    services := [("users", ⟨[], "round_robin", 0, 0, ⟨true, 0, 0, 0⟩⟩)]
    prometheusEnabled := false }

theorem loose_config_validated :
    (Manager.new.run [.load (.decoded looseConfig)]).get = some looseConfig ∧
      Validated looseConfig :=
  ⟨rfl, Manager.get_validated [.load (.decoded looseConfig)] rfl⟩

/-- `Load` accepts a configuration whose per-user rule admits no request in a negative window,
whose default window is zero, whose service has no URL and whose breaker is enabled with a zero
threshold and timeout. -/
theorem loose_config_loads :
    (Manager.new.run [.load (.decoded looseConfig)]).get = some looseConfig ∧
      (∃ r ∈ looseConfig.rateLimit.perUser, r.2.requests ≤ 0 ∧ r.2.window ≤ 0) ∧
      looseConfig.rateLimit.default.window ≤ 0 ∧
      (∃ s ∈ looseConfig.services, s.2.urls = [] ∧ s.2.circuitBreaker.enabled = true ∧
        s.2.circuitBreaker.failureThreshold ≤ 0 ∧ s.2.circuitBreaker.recoveryTimeout ≤ 0) :=
  ⟨rfl, ⟨_, List.mem_singleton_self _, by decide⟩, by decide,
    ⟨_, List.mem_singleton_self _, rfl, rfl, by decide⟩⟩

end Config
end ApiGateway
