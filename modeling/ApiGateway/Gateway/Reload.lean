import ApiGateway.Gateway.Breaker

/-!
# ApiGateway.Gateway.Reload

What a reload of the configuration changes.

`main` builds the rate limiter, the circuit breakers, the proxies, the middleware manager and
the router from the configuration it loaded at startup, and none of them keeps a pointer to the
configuration manager. A reload, by the file watcher or by `POST /admin/config/reload`, replaces
the active configuration of `config.Manager` and the field `config` of the gateway, and only
`GET /admin/config` reads them afterwards.

So a request's rate limiting (the `CheckLimit` calls, their keys and results) and its routing
(the handlers that ran, the services and targets that served it) do not depend on the active
configuration, its manager or the file: a run with reloads limits and routes each request as the
same run without them.

* `run_ignores_configuration`: every run limits and routes its requests as the run of its
  requests alone, from the gateway with any configuration, manager and file.
-/

namespace ApiGateway
namespace Gateway

/-- The components of a gateway a request reads, besides the request: all but the active
configuration, its manager and the configuration file. -/
structure Components where
  jwtAuth : Auth.JWTAuth
  rateLimiter : RateLimit.Manager
  store : RateLimit.Store
  circuitManager : Circuit.Manager
  proxyManager : Proxy.ProxyManager
  middlewareManager : Middleware.Manager
  router : Router

/-- The components of `g`. -/
def components (g : Gateway) : Components :=
  ⟨g.jwtAuth, g.rateLimiter, g.store, g.circuitManager, g.proxyManager, g.middlewareManager,
    g.router⟩

/-- What the stages read of a context and the observation records: the claims, the route's
parameters and the `CheckLimit` calls. -/
def ctxView (c : Middleware.Ctx) :
    Option Auth.Claims × List (String × String) × List (String × Except String Bool) :=
  (c.user, c.params, c.checks)

/-- What a request's handling reads and records of an exchange: the view of its context, the
handlers that ran, the services that served, and the components of its gateway. -/
def Exchange.view (e : Exchange) :=
  (ctxView e.ctx, e.ran, e.served, components e.gw)

@[simp] theorem ctxView_write (c : Middleware.Ctx) (code : Nat) (body : Body) :
    ctxView (c.write code body) = ctxView c := rfl

@[simp] theorem view_write (e : Exchange) (code : Nat) (body : Body) :
    (e.write code body).view = e.view := rfl

section Stages

open Middleware

variable {x : Ext} {m : Manager} {req : Request} {c c' : Ctx} {limiter : RateLimit.Manager}
  {store : RateLimit.Store}

@[simp] theorem ctxView_setHeader (key value : String) :
    ctxView (c.setHeader key value) = ctxView c := rfl

theorem cors_view : (Middleware.cors m req c).1 = (if req.method = "OPTIONS" then .abort else .next) ∧
    ctxView (Middleware.cors m req c).2 = ctxView c := by
  constructor
  · simp only [Middleware.cors, apply_ite Prod.fst]
  · simp only [Middleware.cors, apply_ite Prod.snd, apply_ite ctxView, ctxView_setHeader,
      ctxView_write, ite_self]

theorem jwtAuth_view (h : ctxView c = ctxView c') :
    (Middleware.jwtAuth x m req c).1 = (Middleware.jwtAuth x m req c').1 ∧
      ctxView (Middleware.jwtAuth x m req c).2 = ctxView (Middleware.jwtAuth x m req c').2 := by
  simp only [ctxView, Prod.mk.injEq] at h
  simp only [Middleware.jwtAuth]
  repeat' split
  all_goals simp_all [ctxView, Ctx.write]

theorem requireRole_view (role : String) (h : ctxView c = ctxView c') :
    (requireRole role c).1 = (requireRole role c').1 ∧
      ctxView (requireRole role c).2 = ctxView (requireRole role c').2 := by
  simp only [ctxView, Prod.mk.injEq] at h
  simp only [requireRole, h.1]
  repeat' split
  all_goals simp_all [ctxView, Ctx.write]

theorem rateLimit_view (h : ctxView c = ctxView c') :
    (Middleware.rateLimit x req c limiter store).flow =
        (Middleware.rateLimit x req c' limiter store).flow ∧
      ctxView (Middleware.rateLimit x req c limiter store).ctx =
        ctxView (Middleware.rateLimit x req c' limiter store).ctx ∧
      (Middleware.rateLimit x req c limiter store).limiter =
        (Middleware.rateLimit x req c' limiter store).limiter ∧
      (Middleware.rateLimit x req c limiter store).store =
        (Middleware.rateLimit x req c' limiter store).store := by
  simp only [ctxView, Prod.mk.injEq] at h
  have hkey : rateLimitKey x req c = rateLimitKey x req c' := by simp only [rateLimitKey, h.1]
  simp only [Middleware.rateLimit, hkey]
  repeat' split
  all_goals simp_all [ctxView, Ctx.setHeader, Ctx.write]

/-- A stage's flow, the view of its context, the rate limiter and the store it leaves depend on
the context only through its view. -/
theorem stage_run_view (s : Stage) (h : ctxView c = ctxView c') :
    (s.run x m req c limiter store).flow = (s.run x m req c' limiter store).flow ∧
      ctxView (s.run x m req c limiter store).ctx = ctxView (s.run x m req c' limiter store).ctx ∧
      (s.run x m req c limiter store).limiter = (s.run x m req c' limiter store).limiter ∧
      (s.run x m req c limiter store).store = (s.run x m req c' limiter store).store := by
  cases s with
  | cors =>
    obtain ⟨hf, hv⟩ := @cors_view m req c
    obtain ⟨hf', hv'⟩ := @cors_view m req c'
    exact ⟨hf.trans hf'.symm, hv.trans (h.trans hv'.symm), rfl, rfl⟩
  | rateLimit => exact rateLimit_view h
  | jwtAuth =>
    obtain ⟨hf, hv⟩ := @jwtAuth_view x m req c c' h
    exact ⟨hf, hv, rfl, rfl⟩
  | requireRole role =>
    obtain ⟨hf, hv⟩ := requireRole_view role h
    exact ⟨hf, hv, rfl, rfl⟩
  | _ => exact ⟨rfl, h, rfl, rfl⟩

end Stages

section Exchanges

variable {x : Ext} {req : Request}

/-- Exchanges of one view differ only in what it leaves out. -/
theorem eq_of_view_eq {e e' : Exchange} (h : e.view = e'.view) :
    e' = { e with
      ctx := { e.ctx with status := e'.ctx.status, headers := e'.ctx.headers, body := e'.ctx.body }
      gw := { e.gw with config := e'.gw.config, configManager := e'.gw.configManager,
                        file := e'.gw.file } } := by
  rcases e with ⟨⟨⟩, ⟨⟩, _, _⟩
  rcases e' with ⟨⟨⟩, ⟨⟩, _, _⟩
  simp only [Exchange.view, ctxView, components, Prod.mk.injEq, Components.mk.injEq] at h
  obtain ⟨⟨rfl, rfl, rfl⟩, rfl, rfl, rfl, rfl, rfl, rfl, rfl, rfl, rfl⟩ := h
  rfl

theorem runStage_view (s : Middleware.Stage) {e e' : Exchange} (h : e.view = e'.view) :
    (e.runStage x req s).1 = (e'.runStage x req s).1 ∧
      (e.runStage x req s).2.view = (e'.runStage x req s).2.view := by
  rw [eq_of_view_eq h, runStage_eq, runStage_eq]
  obtain ⟨hf, hv, hl, hs⟩ := @stage_run_view x e.gw.middlewareManager req e.ctx
    { e.ctx with status := e'.ctx.status, headers := e'.ctx.headers, body := e'.ctx.body }
    e.gw.rateLimiter e.gw.store s rfl
  refine ⟨hf, ?_⟩
  dsimp only
  simp only [Exchange.view, components, hv, hl, hs]

/-- A handler's result has a view that depends on the exchange only through its view. -/
theorem runHandler_view (h : Handler) {e e' : Exchange} (hv : e.view = e'.view) :
    (runHandler x req h e).view = (runHandler x req h e').view := by
  rw [eq_of_view_eq hv]
  cases h <;> simp only [runHandler, login, refreshToken, reloadConfig, updateService,
    resetCircuitBreaker, resetRateLimit, withUser, proxyRequest, recoverAbort, recovered, Exchange.param,
    Exchange.modify] <;> (repeat' split) <;> (try simp only [view_write]) <;> rfl

/-- Chains run from exchanges of one view end in exchanges of one view, with one flow. -/
theorem runSteps_view (steps : List Step) :
    ∀ {e e' : Exchange}, e.view = e'.view →
      (runSteps x req steps e).1.view = (runSteps x req steps e').1.view ∧
        (runSteps x req steps e).2 = (runSteps x req steps e').2 := by
  induction steps with
  | nil => intro e e' h; exact ⟨h, rfl⟩
  | cons step rest ih =>
    intro e e' h
    cases step with
    | stage s =>
      obtain ⟨hf, hv⟩ := @runStage_view x req s e e' h
      simp only [runSteps]
      rcases hr : e.runStage x req s with ⟨f, e₁⟩
      rcases hr' : e'.runStage x req s with ⟨f', e₁'⟩
      rw [hr, hr'] at hf hv
      cases hf
      cases f
      · exact ih hv
      · exact ⟨hv, rfl⟩
    | handler h' => exact ih (runHandler_view h' h)

/-- The handling of a request by gateways of the same components ends in exchanges of one
view. -/
theorem handle_view {g g' : Gateway} (hc : components g = components g') (req : Request) :
    (handle x g req).view = (handle x g' req).view := by
  have hr : g.router = g'.router := congrArg Components.router hc
  have hstart : ∀ params status, (Exchange.start g params status).view =
      (Exchange.start g' params status).view := fun _ _ => by
    simp only [Exchange.view, Exchange.start, hc]
  unfold handle
  rw [hr]
  split
  · exact (runSteps_view _ (hstart _ _)).1
  · exact hstart _ _
  · rename_i handlers _
    have := (@runSteps_view x req handlers _ _ (hstart [] 404)).1
    dsimp only
    split <;> split <;> simpa only [view_write] using this

end Exchanges

/-- Whether an event is a request. -/
def Event.isRequest : Event → Bool
  | .request _ => true
  | .fileChange _ => false

/-- Runs from gateways of the same components, the second over the requests of the first alone,
record the same observations and end with the same components. -/
theorem foldl_step_view (x : Ext) :
    ∀ (es : List Event) (g g' : Gateway) (obs : List Observation), components g = components g' →
      (es.foldl (step x) (g, obs)).2 = ((es.filter Event.isRequest).foldl (step x) (g', obs)).2 ∧
        components (es.foldl (step x) (g, obs)).1 =
          components ((es.filter Event.isRequest).foldl (step x) (g', obs)).1
  | [], _, _, _, hc => ⟨rfl, hc⟩
  | .request req :: es, g, g', obs, hc => by
    have hv := handle_view (x := x) hc req
    have hobs : (handle x g req).observe = (handle x g' req).observe := by
      simp only [Exchange.view, ctxView, Prod.mk.injEq] at hv
      simp only [Exchange.observe, hv]
    simp only [List.foldl_cons, List.filter_cons, Event.isRequest, if_true, step, hobs]
    exact foldl_step_view x es _ _ _ (congrArg (fun v => v.2.2.2) hv)
  | .fileChange f :: es, g, g', obs, hc => by
    simp only [List.foldl_cons, List.filter_cons, Event.isRequest]
    exact foldl_step_view x es _ _ _ hc

/-- A run limits and routes its requests as the run of its requests alone from the same
gateway with any configuration, configuration manager and file: reloads, and the configuration
they make active, change neither the `CheckLimit` calls nor the handlers and services of any
request. -/
theorem run_ignores_configuration (x : Ext) (g : Gateway) (es : List Event) (config : Config)
    (configManager : Config.Manager) (file : Config.File) :
    (run x g es).2 =
        (run x { g with config := config, configManager := configManager, file := file }
          (es.filter Event.isRequest)).2 ∧
      components (run x g es).1 =
        components (run x { g with config := config, configManager := configManager, file := file }
          (es.filter Event.isRequest)).1 :=
  foldl_step_view x es _ _ [] rfl

/-- From the configuration `onePerMinute`, the file changes to `usersConfig`, which turns rate
limiting off and adds the service `users`, and the watcher makes it active. A request for
`/users/1` is still checked by the rate limiter, and answered `404`. -/
theorem reload_keeps_startup_rules :
    ∃ g, start plainExt (.decoded onePerMinute) false 0 = .ok g ∧
      (run plainExt g [.fileChange (.decoded usersConfig)]).1.configManager.get = some usersConfig ∧
      (handle plainExt (run plainExt g [.fileChange (.decoded usersConfig)]).1
        (usersRequest Time.second (.responds 200 0))).ctx.checks = [("10.0.0.1", .ok true)] ∧
      (handle plainExt (run plainExt g [.fileChange (.decoded usersConfig)]).1
        (usersRequest Time.second (.responds 200 0))).ctx.response =
        ⟨404, [], .error "Service not found: users" none⟩ :=
  ⟨_, rfl, rfl, rfl, rfl⟩

end Gateway
end ApiGateway
