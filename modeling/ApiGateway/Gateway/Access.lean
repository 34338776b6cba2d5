import ApiGateway.Gateway.Serve

/-!
# ApiGateway.Gateway.Access

Who reaches the handlers of the protected groups of the router `SetupRoutes` builds.

A handler runs only once every stage before it in its chain continued. The chains of the
`/api` group, `/auth/refresh` and `/auth/logout` end with `JWTAuth`, and those of the `/admin`
group with `JWTAuth` and `RequireRole("admin")`, whatever the CORS and rate-limit settings put
before them; `JWTAuth` continues only for a header `Bearer <token>` whose token validates, and it
stores the token's claims, which `RequireRole` then reads.

* `protected_handlers_need_token`: an `/admin` handler runs only for a valid token of a user with
  the role `admin`, and a handler of `/api`, `/auth/refresh` or `/auth/logout` only for a valid
  token.
-/

namespace ApiGateway
namespace Gateway

section Stages

variable {x : Ext} {req : Request}

/-- Stages leave the middleware manager as it is. -/
theorem runSteps_stages_middlewareManager (l : List Middleware.Stage) (e e' : Exchange)
    (f : Middleware.Flow) (h : runSteps x req (l.map .stage) e = (e', f)) :
    e'.gw.middlewareManager = e.gw.middlewareManager := by
  induction l generalizing e with
  | nil => cases h; rfl
  | cons s l ih =>
    have hmm := @runStage_middlewareManager x req s e
    simp only [List.map_cons, runSteps] at h
    split at h
    · rename_i e₁ hs
      rw [hs] at hmm
      exact (ih e₁ h).trans hmm
    · rename_i e₁ hs
      cases h
      rw [hs] at hmm
      exact hmm

/-- A single stage that continued. -/
theorem runSteps_stage_next {s : Middleware.Stage} {e e' : Exchange}
    (h : runSteps x req [.stage s] e = (e', .next)) :
    (s.run x e.gw.middlewareManager req e.ctx e.gw.rateLimiter e.gw.store).flow = .next ∧
      e'.ctx = (s.run x e.gw.middlewareManager req e.ctx e.gw.rateLimiter e.gw.store).ctx := by
  simp only [runSteps] at h
  split at h
  · rename_i e₁ hs
    cases h
    rw [runStage_eq] at hs
    simp only [Prod.mk.injEq] at hs
    exact ⟨hs.1, by rw [← hs.2]⟩
  · cases h

/-- Stages ending with `JWTAuth` continue only for a valid bearer token, whose claims they
store. -/
theorem runSteps_jwtAuth (l : List Middleware.Stage) {e e' : Exchange}
    (h : runSteps x req ((l ++ [Middleware.Stage.jwtAuth]).map .stage) e = (e', .next)) :
    ∃ token claims, req.header "Authorization" = "Bearer " ++ token ∧ ' ' ∉ token.data ∧
      e.gw.middlewareManager.jwtAuth.validateToken x.jwt token req.now = .ok claims ∧
      e'.ctx.user = some claims := by
  rw [List.map_append, runSteps_append] at h
  split at h
  · rename_i e₁ hl
    obtain ⟨hflow, hctx⟩ := runSteps_stage_next h
    simp only [Middleware.Stage.run] at hflow hctx
    have hj : Middleware.jwtAuth x e₁.gw.middlewareManager req e₁.ctx =
        (.next, (Middleware.jwtAuth x e₁.gw.middlewareManager req e₁.ctx).2) := Prod.ext hflow rfl
    obtain ⟨token, claims, hh, hs, hv, hc⟩ := Middleware.jwtAuth_next hj
    rw [runSteps_stages_middlewareManager l e e₁ _ hl] at hv
    exact ⟨token, claims, hh, hs, hv, by rw [hctx, hc]⟩
  · cases h

/-- Stages ending with `JWTAuth` and `RequireRole(role)` continue only for a valid bearer token
whose claims hold `role`. -/
theorem runSteps_requireRole (l : List Middleware.Stage) (role : String) {e e' : Exchange}
    (h : runSteps x req ((l ++ [Middleware.Stage.jwtAuth, .requireRole role]).map .stage) e =
      (e', .next)) :
    ∃ token claims, req.header "Authorization" = "Bearer " ++ token ∧ ' ' ∉ token.data ∧
      e.gw.middlewareManager.jwtAuth.validateToken x.jwt token req.now = .ok claims ∧
      role ∈ claims.roles := by
  rw [show l ++ [Middleware.Stage.jwtAuth, .requireRole role] =
      (l ++ [.jwtAuth]) ++ [.requireRole role] by simp,
    List.map_append, runSteps_append] at h
  split at h
  · rename_i e₁ hl
    obtain ⟨token, claims, hh, hs, hv, hu⟩ := runSteps_jwtAuth l hl
    obtain ⟨hflow, -⟩ := runSteps_stage_next h
    simp only [Middleware.Stage.run] at hflow
    have hr : Middleware.requireRole role e₁.ctx =
        (.next, (Middleware.requireRole role e₁.ctx).2) := Prod.ext hflow rfl
    obtain ⟨claims', hu', hrole, -⟩ := Middleware.requireRole_next hr
    rw [hu, Option.some.injEq] at hu'
    exact ⟨token, claims, hh, hs, hv, hu' ▸ hrole⟩
  · cases h

end Stages

theorem stages_handler_eq {stages : List Middleware.Stage} {h₀ h : Handler} {pre post : List Step}
    (heq : stages.map .stage ++ [.handler h₀] = pre ++ .handler h :: post) :
    pre = stages.map .stage ∧ h = h₀ := by
  induction pre generalizing stages with
  | nil =>
    cases stages with
    | nil =>
      simp only [List.map_nil, List.nil_append, List.cons.injEq, Step.handler.injEq] at heq
      exact ⟨rfl, heq.1.symm⟩
    | cons s ss => simp at heq
  | cons p pre ih =>
    cases stages with
    | nil => simp at heq
    | cons s ss =>
      simp only [List.map_cons, List.cons_append, List.cons.injEq] at heq
      obtain ⟨rfl, heq⟩ := heq
      obtain ⟨rfl, rfl⟩ := ih heq
      exact ⟨rfl, rfl⟩

/-- A handler that ran on a route of `SetupRoutes` ran after its route's stages continued. -/
theorem ran_on_route {x : Ext} {req : Request} {g : Gateway} {prometheus : Bool}
    {hs : List Step} {params : List (String × String)} {h : Handler}
    (hr : g.router = setupRoutes g.middlewareManager prometheus)
    (hl : g.router.lookup req.method req.path = some (hs, params))
    (hran : h ∈ (runSteps x req hs (Exchange.start g params 200)).1.ran) :
    ∃ stages e', Guarded h stages ∧
      runSteps x req (stages.map .stage) (Exchange.start g params 200) = (e', .next) := by
  obtain ⟨route, hmem, rfl⟩ := lookup_mem hl
  rw [hr] at hmem
  obtain ⟨stages, h₀, hhs, hg⟩ := setupRoutes_handlers _ _ route hmem
  rcases runSteps_ran h _ _ hran with hin | ⟨pre, post, e', hsplit, hpre⟩
  · cases hin
  · obtain ⟨rfl, rfl⟩ := stages_handler_eq (hhs.symm.trans hsplit)
    exact ⟨stages, e', hg, hpre⟩

/-- The only handler of a request with no route is `proxyRequest`. -/
theorem ran_noRoute {x : Ext} {req : Request} {g : Gateway} {prometheus : Bool} {h : Handler}
    (hr : g.router = setupRoutes g.middlewareManager prometheus)
    (hran : h ∈ (runSteps x req g.router.noRoute (Exchange.start g [] 404)).1.ran) :
    h = .proxyRequest := by
  rcases runSteps_ran h _ _ hran with hin | ⟨pre, post, e', hsplit, -⟩
  · cases hin
  · simp only [hr, setupRoutes] at hsplit
    exact (stages_handler_eq hsplit).2

/-- An `/admin` handler runs only for a valid bearer token of a user with the role `admin`; a
handler of `/api`, `/auth/refresh` or `/auth/logout` only for a valid bearer token. -/
theorem protected_handlers_need_token (x : Ext) (g : Gateway) (prometheus : Bool)
    (hr : g.router = setupRoutes g.middlewareManager prometheus) (req : Request) (h : Handler)
    (hran : h ∈ (handle x g req).ran) :
    (h ∈ adminHandlers → ∃ token claims, req.header "Authorization" = "Bearer " ++ token ∧
        ' ' ∉ token.data ∧
        g.middlewareManager.jwtAuth.validateToken x.jwt token req.now = .ok claims ∧
        "admin" ∈ claims.roles) ∧
    (h ∈ apiHandlers ∨ h = .refreshToken ∨ h = .logout → ∃ token claims,
        req.header "Authorization" = "Bearer " ++ token ∧ ' ' ∉ token.data ∧
        g.middlewareManager.jwtAuth.validateToken x.jwt token req.now = .ok claims) := by
  unfold handle at hran
  split at hran
  · rename_i hs params hd
    obtain ⟨stages, e', ⟨hadmin, hauth⟩, hrun⟩ := ran_on_route hr (dispatch_route hd) hran
    refine ⟨fun ha => ?_, fun hp => ?_⟩
    · obtain ⟨l, rfl⟩ := hadmin ha
      exact runSteps_requireRole l "admin" hrun
    · obtain ⟨l, rfl⟩ := hauth hp
      obtain ⟨token, claims, hh, hs, hv, -⟩ := runSteps_jwtAuth l hrun
      exact ⟨token, claims, hh, hs, hv⟩
  · cases hran
  · rename_i hs hd
    rw [dispatch_noRoute hd] at hran
    have hproxy : h = .proxyRequest := by
      simp only at hran
      split at hran <;> exact ran_noRoute hr hran
    subst hproxy
    exact ⟨fun ha => absurd ha (by decide), fun hp => absurd hp (by decide)⟩

/-- The claims `login` signs for the user `admin`, without dates. -/
def adminClaims : Auth.Claims :=
  ⟨"user123", "admin", "admin@example.com", ["admin", "user"], [("department", "engineering")],
    ⟨"api-gateway", "user123", ["api-gateway-users"], none, none, none, ""⟩⟩

/-- Libraries whose token parser accepts the token `tok` alone, with `adminClaims`. -/
def tokExt : Ext :=
  ⟨⟨fun _ _ => .ok "tok", fun _ token _ => if token = "tok" then .ok adminClaims else .error "token is malformed"⟩,
    fun _ => none, .ok⟩

/-- A configuration with CORS and rate limiting off and no service. -/
def openConfig : Config :=
  { server := ⟨8080, ⟨false, [], [], []⟩⟩
    jwt := ⟨"secret", 3600 * Time.second, 86400 * Time.second, "api-gateway", "api-gateway-users",
      "HS256"⟩
    rateLimit := ⟨false, "sliding_window", ⟨100, 60 * Time.second, 10⟩, [], []⟩
    services := []
    prometheusEnabled := false }

/-- The gateway `main` builds from `openConfig`. -/
def openGateway : Gateway :=
  let mm : Middleware.Manager := ⟨openConfig, ⟨"secret", 3600 * Time.second, 86400 * Time.second,
    "api-gateway", "api-gateway-users", "HS256"⟩⟩
  { config := openConfig, configManager := ⟨some openConfig⟩, jwtAuth := mm.jwtAuth,
    rateLimiter := RateLimit.Manager.new openConfig.rateLimit false, store := RateLimit.Store.empty,
    circuitManager := Circuit.Manager.new, proxyManager := Proxy.ProxyManager.new,
    middlewareManager := mm, router := setupRoutes mm false, file := .decoded openConfig }

/-- `GET /admin/config` with the token `tok`. -/
def getConfigRequest : Request :=
  { method := "GET", path := "/admin/config", headers := [("Authorization", "Bearer tok")],
    remoteAddr := "10.0.0.1:5000", loginJSON := .error "EOF", serviceJSON := .error "EOF", now := 0
    upstream := fun _ => .responds 200 0, draw := 0 }

theorem getConfig_runs_for_admin_token :
    openGateway.router = setupRoutes openGateway.middlewareManager false ∧
    Handler.getConfig ∈ (handle tokExt openGateway getConfigRequest).ran ∧
    (Handler.getConfig ∈ adminHandlers → ∃ token claims,
        getConfigRequest.header "Authorization" = "Bearer " ++ token ∧ ' ' ∉ token.data ∧
        openGateway.middlewareManager.jwtAuth.validateToken tokExt.jwt token getConfigRequest.now =
          .ok claims ∧ "admin" ∈ claims.roles) ∧
    (Handler.getConfig ∈ apiHandlers ∨ Handler.getConfig = .refreshToken ∨
        Handler.getConfig = .logout → ∃ token claims,
        getConfigRequest.header "Authorization" = "Bearer " ++ token ∧ ' ' ∉ token.data ∧
        openGateway.middlewareManager.jwtAuth.validateToken tokExt.jwt token getConfigRequest.now =
          .ok claims) :=
  have hran : Handler.getConfig ∈ (handle tokExt openGateway getConfigRequest).ran := by decide
  ⟨rfl, hran, protected_handlers_need_token tokExt openGateway false rfl getConfigRequest _ hran⟩

end Gateway
end ApiGateway
