import ApiGateway.Gateway.Router
import ApiGateway.Circuit
import ApiGateway.Proxy

/-!
# ApiGateway.Gateway.Serve

The gateway as `main` assembles it, its handlers, and the runs of a gateway: requests served
through the router, and edits of the configuration file, each followed by the reload of the file
watcher.

A request is served at one instant, start to end, before the next: the rate-limit checks, the
breaker and the proxy of a request act in that order on the state the previous request left.
A panic in a handler is recovered by the `Recovery` stage, which every chain holds, and answers
`500`. `proxyRequest` runs `ServeHTTP` inside `CircuitBreaker.Call` with a function that returns
`nil`: the one outcome gobreaker's `Execute` records as a failure is the panic of an aborted
answer, which it records before it panics again.

* `runSteps_append`: a chain runs its first part, and its second part when the first did not
  abort.
-/

namespace ApiGateway

open Gateway in
/-- `gateway.Gateway` with the state of the components it points to, and the configuration file
as it reads now. The middleware manager and `jwtAuth` hold the same authenticator. -/
structure Gateway where
  config : Config
  configManager : Config.Manager
  jwtAuth : Auth.JWTAuth
  rateLimiter : RateLimit.Manager
  store : RateLimit.Store
  circuitManager : Circuit.Manager
  proxyManager : Proxy.ProxyManager
  middlewareManager : Middleware.Manager
  router : Router
  file : Config.File

namespace Gateway

/-- A request being served: the context, the gateway, the handlers that ran, and the services
whose proxy served it, with the target it chose. -/
structure Exchange where
  ctx : Middleware.Ctx
  gw : Gateway
  ran : List Handler
  served : List (String × Option String)

namespace Exchange

/-- The exchange of a request with a route's `params`, gin's writer starting at `status`. -/
def start (g : Gateway) (params : List (String × String)) (status : Nat) : Exchange :=
  ⟨Middleware.Ctx.start params status, g, [], []⟩

/-- `c.JSON(code, body)`. -/
def write (e : Exchange) (code : Nat) (body : Body) : Exchange :=
  { e with ctx := e.ctx.write code body }

@[simp] theorem write_checks (e : Exchange) (code : Nat) (body : Body) :
    (e.write code body).ctx.checks = e.ctx.checks := rfl

/-- `c.Param(name)`. -/
def param (e : Exchange) (name : String) : String := (e.ctx.params.lookup name).getD ""

/-- The gateway changed by `f`. -/
def modify (e : Exchange) (f : Gateway → Gateway) : Exchange := { e with gw := f e.gw }

/-- The answer of `ServeHTTP` for `service` written, and its proxy stored. -/
def serve (e : Exchange) (service : String) (r : Proxy.Served) : Exchange :=
  { e with
    ctx := { e.ctx with status := r.response.status, headers := e.ctx.headers ++ r.response.headers,
                        body := r.response.body }
    gw := { e.gw with proxyManager := e.gw.proxyManager.setProxy service r.proxy }
    served := e.served ++ [(service, r.target)] }

/-- A stage run on the exchange: its flow, and the exchange with the context, rate limiter and
store the stage left. It is written field by field, so that evaluating a chain never copies an
exchange. -/
def runStage (x : Ext) (req : Request) (s : Middleware.Stage) : Exchange → Middleware.Flow × Exchange
  | ⟨ctx, ⟨config, configManager, jwtAuth, limiter, store, circuitManager, proxyManager, mm, router,
      file⟩, ran, served⟩ =>
    match s.run x mm req ctx limiter store with
    | ⟨flow, ctx, limiter, store⟩ =>
      (flow, ⟨ctx, ⟨config, configManager, jwtAuth, limiter, store, circuitManager, proxyManager, mm,
        router, file⟩, ran, served⟩)

/-- The breaker of `service` replaced by `b`. -/
def setBreaker (e : Exchange) (service : String) (b : Circuit.Breaker) : Exchange :=
  e.modify fun g =>
    { g with circuitManager := ⟨Function.update g.circuitManager.breakers service (some ⟨some b⟩)⟩ }

end Exchange

/-- The `500` of a panic recovered by the `Recovery` stage. -/
def recovered (e : Exchange) : Exchange := e.write 500 (.error "Internal Server Error" none)

/-- The `Recovery` stage after `ServeHTTP`, when its answer `aborted`: gin keeps the status once
a byte of the body went out, and the JSON of `Recovery` follows the body; before that the
`500` replaces what was set. -/
def recoverAbort (aborted : Bool) (e : Exchange) : Exchange :=
  if aborted ∧ e.ctx.body = .empty then recovered e else e

/-- The answer of `login` and `refreshToken` with `token`: its type, and the lifetime of the
active configuration, `g.config.Auth.JWT.ExpirationTime.String()`. -/
def tokenAnswer (e : Exchange) (token : String) : Body :=
  .token token "Bearer" (Time.durationString e.gw.config.jwt.expirationTime)

/-- `login`. -/
def login (x : Ext) (req : Request) (e : Exchange) : Exchange :=
  match req.loginJSON with
  | .error err => e.write 400 (.error err none)
  | .ok (username, password) =>
    if username = "admin" ∧ password = "password" then
      match e.gw.jwtAuth.generateToken x.jwt "user123" username "admin@example.com"
          ["admin", "user"] [("department", "engineering")] req.now with
      | .error _ => e.write 500 (.error "Failed to generate token" none)
      | .ok token => e.write 200 (tokenAnswer e token)
    else e.write 401 (.error "Invalid credentials" none)

/-- `refreshToken`. -/
def refreshToken (x : Ext) (req : Request) (e : Exchange) : Exchange :=
  match Auth.JWTAuth.extractTokenFromHeader (req.header "Authorization") with
  | .error _ => e.write 401 (.error "Invalid authorization header" none)
  | .ok token =>
    match e.gw.jwtAuth.refreshToken x.jwt token req.now with
    | none => recovered e
    | some (.error _) => e.write 401 (.error "Token refresh failed" none)
    | some (.ok newToken) => e.write 200 (tokenAnswer e newToken)

/-- `reloadConfig`: `Reload()` of the file as it reads now, then `g.config = configManager.Get()`. -/
def reloadConfig (e : Exchange) : Exchange :=
  match e.gw.configManager.reload e.gw.file with
  | .error _ => e.write 500 (.error "Failed to reload configuration" none)
  | .ok cm =>
    (e.modify fun g => { g with configManager := cm, config := cm.get.getD g.config }).write 200
      (.message "Configuration reloaded successfully")

/-- `updateService`. -/
def updateService (x : Ext) (req : Request) (e : Exchange) : Exchange :=
  match req.serviceJSON with
  | .error err => e.write 400 (.error err none)
  | .ok cfg =>
    match e.gw.proxyManager.updateService x (e.param "name") cfg with
    | .error err => e.write 500 (.error err none)
    | .ok pm => (e.modify fun g => { g with proxyManager := pm }).write 200
        (.message "Service updated successfully")

/-- `resetCircuitBreaker`: `ResetBreaker(name)` fails only for a service with no breaker. -/
def resetCircuitBreaker (e : Exchange) : Exchange :=
  match e.gw.circuitManager.getBreaker (e.param "name") with
  | none => e.write 404 (.error ("circuit breaker not found: " ++ e.param "name") none)
  | some _ => e.write 200 (.message "Circuit breaker reset successfully")

/-- `resetRateLimit`. -/
def resetRateLimit (e : Exchange) : Exchange :=
  let r := e.gw.rateLimiter.reset e.gw.store (e.param "key")
  let e := e.modify fun g => { g with rateLimiter := r.2.1, store := r.2.2 }
  match r.1 with
  | .error err => e.write 500 (.error err none)
  | .ok () => e.write 200 (.message "Rate limit reset successfully")

/-- `getUserProfile` and `validateToken`: the claims stored under `user`, whose absence panics. -/
def withUser (name : String) (e : Exchange) : Exchange :=
  match e.ctx.user with
  | none => recovered e
  | some _ => e.write 200 (.document name)

/-- The segments of a path without its outer slashes; the first names the service. -/
def serviceParts (path : String) : List String := Strings.split (Strings.trim path '/') '/'

/-- `proxyRequest`. -/
def proxyRequest (req : Request) (e : Exchange) : Exchange :=
  match serviceParts req.path with
  | [] => e.write 404 (.error "Service not found" none)
  | serviceName :: _ =>
    match e.gw.proxyManager.getProxy serviceName with
    | none => e.write 404 (.error ("Service not found: " ++ serviceName) none)
    | some rp =>
      match e.gw.circuitManager.getBreaker serviceName with
      | some ⟨some b⟩ =>
        match b.beforeRequest req.now with
        | (.error _, b) =>
          (e.setBreaker serviceName b).write 503 (.error "Service temporarily unavailable" none)
        | (.ok generation, b) =>
          let r := rp.serveHTTP req
          recoverAbort r.aborted ((e.serve serviceName r).setBreaker serviceName
            (b.afterRequest generation (!r.aborted) (req.now + r.elapsed)))
      | _ => let r := rp.serveHTTP req; recoverAbort r.aborted (e.serve serviceName r)

/-- A handler run on a request. -/
def runHandler (x : Ext) (req : Request) (h : Handler) (e : Exchange) : Exchange :=
  let e := { e with ran := e.ran ++ [h] }
  match h with
  | .healthCheck => e.write 200 (.document "healthCheck")
  | .metrics => e.write 200 (.document "metrics")
  | .gatewayInfo => e.write 200 (.document "gatewayInfo")
  | .login => login x req e
  | .refreshToken => refreshToken x req e
  | .logout => e.write 200 (.message "Logged out successfully")
  | .getConfig => e.write 200 (.config e.gw.config)
  | .reloadConfig => reloadConfig e
  | .getServices => e.write 200 (.document "getServices")
  | .updateService => updateService x req e
  | .deleteService =>
    (e.modify fun g => { g with proxyManager := g.proxyManager.removeService (e.param "name") }).write
      200 (.message "Service removed successfully")
  | .getStats => e.write 200 (.document "getStats")
  | .getDetailedMetrics => e.write 200 (.message "Detailed metrics endpoint")
  | .getCircuitBreakers => e.write 200 (.document "getCircuitBreakers")
  | .resetCircuitBreaker => resetCircuitBreaker e
  | .getRateLimits => e.write 200 (.document "getRateLimits")
  | .resetRateLimit => resetRateLimit e
  | .getUserProfile => withUser "getUserProfile" e
  | .updateUserProfile => e.write 200 (.message "Profile updated successfully")
  | .validateToken => withUser "validateToken" e
  | .proxyRequest => proxyRequest req e

/-- Runs a chain: the stages in turn until one aborts, and the handlers. The flow tells whether
the chain ran to its end. -/
def runSteps (x : Ext) (req : Request) : List Step → Exchange → Exchange × Middleware.Flow
  | [], e => (e, .next)
  | .stage s :: rest, e =>
    match e.runStage x req s with
    | (.next, e) => runSteps x req rest e
    | (.abort, e) => (e, .abort)
  | .handler h :: rest, e => runSteps x req rest (runHandler x req h e)

/-- `ServeHTTP` of the engine: the request dispatched by the router and its handlers run. -/
def handle (x : Ext) (g : Gateway) (req : Request) : Exchange :=
  match g.router.dispatch req.method req.path with
  | .route handlers params => (runSteps x req handlers (Exchange.start g params 200)).1
  | .redirect status => Exchange.start g [] status
  | .noRoute handlers =>
    let e := (runSteps x req handlers (Exchange.start g [] 404)).1
    if e.ctx.status = 404 ∧ e.ctx.body = .empty then e.write 404 (.text "404 page not found")
    else e

/-- What a request shows of its rate limiting and routing: the `CheckLimit` calls with their
results, the handlers that ran and the services whose proxy served it. -/
structure Observation where
  checks : List (String × Except String Bool)
  ran : List Handler
  served : List (String × Option String)

/-- The observation of a served request. -/
def Exchange.observe (e : Exchange) : Observation := ⟨e.ctx.checks, e.ran, e.served⟩

/-- An event of a run. -/
inductive Event where
  /-- A request is served. -/
  | request (req : Request)
  /-- The configuration file now reads `f`, and the watcher of `Watch()` reloads it. -/
  | fileChange (f : Config.File)

/-- One event: the gateway after it, and the observation of each request so far. -/
def step (x : Ext) (acc : Gateway × List Observation) : Event → Gateway × List Observation
  | .request req => let e := handle x acc.1 req; (e.gw, acc.2 ++ [e.observe])
  | .fileChange f =>
    ({ acc.1 with file := f, configManager := acc.1.configManager.watchReload f }, acc.2)

/-- A run of events from `g`. -/
def run (x : Ext) (g : Gateway) (events : List Event) : Gateway × List Observation :=
  events.foldl (step x) (g, [])

/-- The loop of `initializeServices` at `now`: a breaker for each service whose breaker is
enabled, and a proxy for each, or the first error. -/
def initializeServices (x : Ext) (now : Int) :
    List (String × ServiceConfig) → Circuit.Manager → Proxy.ProxyManager →
      Except String (Circuit.Manager × Proxy.ProxyManager)
  | [], cm, pm => .ok (cm, pm)
  | (name, cfg) :: rest, cm, pm =>
    let cm := if cfg.circuitBreaker.enabled then cm.createBreaker name cfg.circuitBreaker now else cm
    match pm.addService x name cfg with
    | .error e => .error ("failed to add service " ++ name ++ ": " ++ e)
    | .ok pm => initializeServices x now rest cm pm

/-- The gateway `main` builds from the configuration `cfg` it loaded from `file`, with `redis`
telling whether the Redis client connected, at `now`: the components, then `SetupRoutes`, then
`initializeServices`. -/
def assemble (x : Ext) (file : Config.File) (cfg : Config) (redis : Bool) (now : Int) :
    Except String Gateway :=
  let jwtAuth : Auth.JWTAuth := ⟨cfg.jwt.secret, cfg.jwt.expirationTime, cfg.jwt.refreshTime,
    cfg.jwt.issuer, cfg.jwt.audience, cfg.jwt.algorithm⟩
  let mm : Middleware.Manager := ⟨cfg, jwtAuth⟩
  match initializeServices x now cfg.services Circuit.Manager.new Proxy.ProxyManager.new with
  | .error e => .error e
  | .ok (cm, pm) =>
    .ok { config := cfg, configManager := ⟨some cfg⟩, jwtAuth,
          rateLimiter := RateLimit.Manager.new cfg.rateLimit redis, store := RateLimit.Store.empty,
          circuitManager := cm, proxyManager := pm, middlewareManager := mm,
          router := setupRoutes mm cfg.prometheusEnabled, file }

/-- `main` up to serving: `Load` of the configuration file and `Get`, then the gateway built
from the configuration. -/
def start (x : Ext) (file : Config.File) (redis : Bool) (now : Int) : Except String Gateway :=
  match Config.Manager.loadConfig file with
  | .error e => .error e
  | .ok cfg => assemble x file cfg redis now

section Chains

variable {x : Ext} {req : Request}

/-- `runStage` is the stage run on the exchange's context, rate limiter and store. -/
theorem runStage_eq (s : Middleware.Stage) (e : Exchange) :
    e.runStage x req s =
      let p := s.run x e.gw.middlewareManager req e.ctx e.gw.rateLimiter e.gw.store
      (p.flow, { e with ctx := p.ctx, gw := { e.gw with rateLimiter := p.limiter, store := p.store } }) := by
  rcases e with ⟨ctx, ⟨⟩, ran, served⟩
  rfl

@[simp] theorem runStage_ran (s : Middleware.Stage) (e : Exchange) :
    (e.runStage x req s).2.ran = e.ran := by
  simp [runStage_eq]

@[simp] theorem runStage_middlewareManager (s : Middleware.Stage) (e : Exchange) :
    (e.runStage x req s).2.gw.middlewareManager = e.gw.middlewareManager := by
  simp [runStage_eq]

/-- Each handler records itself once among the handlers that ran. -/
theorem runHandler_ran (h : Handler) (e : Exchange) : (runHandler x req h e).ran = e.ran ++ [h] := by
  cases h <;> simp only [runHandler, login, refreshToken, reloadConfig, updateService,
    resetCircuitBreaker, resetRateLimit, withUser, proxyRequest, recoverAbort, recovered] <;>
    (repeat' split) <;> rfl

/-- A chain runs its first part, and its second part when the first did not abort. -/
theorem runSteps_append (l₁ l₂ : List Step) (e : Exchange) :
    runSteps x req (l₁ ++ l₂) e =
      match runSteps x req l₁ e with
      | (e', .next) => runSteps x req l₂ e'
      | (e', .abort) => (e', .abort) := by
  induction l₁ generalizing e with
  | nil => simp only [runSteps, List.nil_append]
  | cons s rest ih =>
    cases s with
    | stage s =>
      simp only [List.cons_append, runSteps]
      split <;> simp_all
    | handler h =>
      simp only [List.cons_append, runSteps]
      exact ih _

/-- A handler that ran in a chain ran before it, or the chain reached it: the part of the chain
before it ran to its end. -/
theorem runSteps_ran (h : Handler) (steps : List Step) (e : Exchange)
    (hran : h ∈ (runSteps x req steps e).1.ran) :
    h ∈ e.ran ∨ ∃ pre post e', steps = pre ++ .handler h :: post ∧
      runSteps x req pre e = (e', .next) := by
  induction steps generalizing e with
  | nil => exact .inl hran
  | cons s rest ih =>
    cases s with
    | stage s =>
      simp only [runSteps] at hran
      have hkeep := @runStage_ran x req s e
      split at hran
      · rename_i e₁ hs
        rw [hs] at hkeep
        rcases ih e₁ hran with hin | ⟨pre, post, e', rfl, hpre⟩
        · exact .inl (hkeep ▸ hin)
        · exact .inr ⟨.stage s :: pre, post, e', rfl, by simp only [runSteps, hs, hpre]⟩
      · rename_i e₁ hs
        rw [hs] at hkeep
        exact .inl (hkeep ▸ hran)
    | handler h' =>
      simp only [runSteps] at hran
      rcases ih _ hran with hin | ⟨pre, post, e', rfl, hpre⟩
      · rw [runHandler_ran, List.mem_append, List.mem_singleton] at hin
        rcases hin with hin | rfl
        · exact .inl hin
        · exact .inr ⟨[], rest, e, rfl, rfl⟩
      · exact .inr ⟨.handler h' :: pre, post, e', rfl, by simpa only [runSteps] using hpre⟩

end Chains

end Gateway
end ApiGateway
