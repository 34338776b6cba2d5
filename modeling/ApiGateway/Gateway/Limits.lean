import ApiGateway.Gateway.Access

/-!
# ApiGateway.Gateway.Limits

The rate limiting a request meets on the router `SetupRoutes` builds.

Only the `RateLimit` stage calls `CheckLimit`, once each time it runs, and records the key and
the result in the context; handlers leave the record as it is. The engine's middleware holds the
stage when rate limiting is enabled, and so do `CreateAuthChain` and `CreateAdminChain`, which
the `/api` and `/admin` groups add after it: a request of those groups is checked twice, and with
a limit of one request per window the first request of a client is refused.

Without identity claims the key is gin's `ClientIP`. The engine of `gin.New()` trusts every
proxy, so a header `X-Forwarded-For` of addresses makes its first address the key, whatever the
peer of the connection.

* `checkLimit_at_most_twice`: a request calls `CheckLimit` at most twice, and never when rate
  limiting is disabled.
* `rateLimitKey_of_remote`: two requests without claims from one remote address share their key
  when neither carries a forwarding header of addresses.
* `rateLimitKey_forwarded`: a header `X-Forwarded-For` of addresses gives its first address as
  the key.
-/

namespace ApiGateway
namespace Gateway

section Checks

variable {x : Ext} {req : Request}

/-- Handlers leave the recorded `CheckLimit` calls as they are. -/
theorem runHandler_checks (h : Handler) (e : Exchange) :
    (runHandler x req h e).ctx.checks = e.ctx.checks := by
  cases h <;> simp only [runHandler, login, refreshToken, reloadConfig, updateService,
    resetCircuitBreaker, resetRateLimit, withUser, proxyRequest, recoverAbort, recovered] <;>
    (repeat' split) <;> rfl

/-- A stage records one `CheckLimit` call when it is `RateLimit`, and none otherwise. -/
theorem runStage_checks_length (s : Middleware.Stage) (e : Exchange) :
    (e.runStage x req s).2.ctx.checks.length =
      e.ctx.checks.length + if s = .rateLimit then 1 else 0 := by
  rw [runStage_eq]
  by_cases hs : s = .rateLimit
  · subst hs
    simp [Middleware.Stage.run, Middleware.rateLimit_key]
  · simp [hs, (@Middleware.Stage.run_of_ne_rateLimit x e.gw.middlewareManager req e.ctx
      e.gw.rateLimiter e.gw.store s hs).2.2]

/-- A chain records at most one `CheckLimit` call for each `RateLimit` stage it holds. -/
theorem runSteps_checks_length (steps : List Step) (e : Exchange) :
    (runSteps x req steps e).1.ctx.checks.length ≤
      e.ctx.checks.length + steps.count (.stage .rateLimit) := by
  induction steps generalizing e with
  | nil => simp [runSteps]
  | cons s rest ih =>
    cases s with
    | stage s =>
      have hs := @runStage_checks_length x req s e
      have hc : (Step.stage s :: rest).count (.stage .rateLimit) =
          rest.count (.stage .rateLimit) + if s = .rateLimit then 1 else 0 := by
        by_cases hr : s = .rateLimit <;> simp [List.count_cons, hr]
      rw [hc]
      simp only [runSteps]
      split <;> rename_i e₁ he <;> simp only [he] at hs ⊢
      · have := ih e₁
        omega
      · omega
    | handler h =>
      have := ih (runHandler x req h e)
      simp only [runSteps, runHandler_checks] at this ⊢
      simpa using this

end Checks

/-- The `RateLimit` stages of the engine's middleware: one when rate limiting is enabled. -/
theorem count_createDefaultChain (mm : Middleware.Manager) :
    (mm.createDefaultChain.map Step.stage).count (.stage .rateLimit) =
      if mm.config.rateLimit.enabled then 1 else 0 := by
  unfold Middleware.Manager.createDefaultChain
  split_ifs <;> rfl

theorem count_groupRoutes (group : List Step) (routes : List (String × String × Handler)) :
    ∀ route ∈ groupRoutes group routes,
      route.handlers.count (.stage .rateLimit) = group.count (.stage .rateLimit) := by
  intro route hroute
  obtain ⟨⟨method, path, h⟩, -, rfl⟩ := List.mem_map.mp hroute
  simp [List.count_append]

/-- Every route of `SetupRoutes` holds at most two `RateLimit` stages, none when rate limiting
is disabled, and the chain of a request with no route at most one. -/
theorem setupRoutes_count_rateLimit (mm : Middleware.Manager) (prometheus : Bool) :
    (∀ route ∈ (setupRoutes mm prometheus).routes,
      route.handlers.count (.stage .rateLimit) ≤ 2 * if mm.config.rateLimit.enabled then 1 else 0) ∧
    (setupRoutes mm prometheus).noRoute.count (.stage .rateLimit) ≤
      2 * if mm.config.rateLimit.enabled then 1 else 0 := by
  have hd := count_createDefaultChain mm
  have hlast : mm.createAuthChain.getLast? = some .jwtAuth := by
    simp [Middleware.Manager.createAuthChain]
  refine ⟨fun route hroute => ?_, ?_⟩
  · simp only [setupRoutes, hlast, List.mem_append, List.mem_cons, List.mem_singleton,
      List.not_mem_nil, or_false] at hroute
    rcases hroute with (((hpub | rfl | rfl | rfl) | hadm) | hap)
    · rw [count_groupRoutes _ _ route hpub, hd]
      split_ifs <;> simp
    · simp [List.count_append, hd]
      split_ifs <;> simp
    · simp [List.count_append, hd]
      split_ifs <;> simp
    · simp [List.count_append, hd]
      split_ifs <;> simp
    · rw [count_groupRoutes _ _ route hadm, List.count_append, hd,
        Middleware.Manager.createAdminChain, List.map_append, List.count_append, hd]
      split_ifs <;> simp
    · rw [count_groupRoutes _ _ route hap, List.count_append, hd,
        Middleware.Manager.createAuthChain, List.map_append, List.count_append, hd]
      split_ifs <;> simp
  · simp only [setupRoutes, List.count_append, hd]
    split_ifs <;> simp

/-- Libraries that reject every token and every IPv6 text, and keep every URL as written. -/
def plainExt : Ext :=
  ⟨⟨fun _ _ => .error "unsupported", fun _ _ _ => .error "token is malformed"⟩, fun _ => none, .ok⟩

/-- Rate limiting on, with the sliding window of one request per minute; no service. -/
def onePerMinute : Config :=
  { server := ⟨8080, ⟨false, [], [], []⟩⟩
    jwt := ⟨"secret", 3600 * Time.second, 86400 * Time.second, "api-gateway", "api-gateway-users",
      "HS256"⟩
    rateLimit := ⟨true, "sliding_window", ⟨1, 60 * Time.second, 1⟩, [], []⟩
    services := []
    prometheusEnabled := false }

/-- A request of the client `10.0.0.1` at the instant `now` for `path`, with `headers`. -/
def clientRequest (path : String) (headers : List (String × String)) (now : Int) : Request :=
  { method := "GET", path := path, headers := headers, remoteAddr := "10.0.0.1:5000"
    loginJSON := .error "EOF", serviceJSON := .error "EOF", now := now
    upstream := fun _ => .responds 200 0, draw := 0 }

/-- On the router of `SetupRoutes`, a request calls `CheckLimit` at most twice, and never when
rate limiting is disabled. -/
theorem checkLimit_at_most_twice (x : Ext) (g : Gateway) (prometheus : Bool)
    (hr : g.router = setupRoutes g.middlewareManager prometheus) (req : Request) :
    (handle x g req).ctx.checks.length ≤
      2 * if g.middlewareManager.config.rateLimit.enabled then 1 else 0 := by
  obtain ⟨hroutes, hnone⟩ := setupRoutes_count_rateLimit g.middlewareManager prometheus
  unfold handle
  split
  · rename_i hs params hd
    obtain ⟨route, hmem, rfl⟩ := lookup_mem (dispatch_route hd)
    have := @runSteps_checks_length x req route.handlers (Exchange.start g params 200)
    have := hroutes route (hr ▸ hmem)
    simp only [Exchange.start, Middleware.Ctx.start, List.length_nil, zero_add] at *
    omega
  · simp [Exchange.start, Middleware.Ctx.start]
  · rename_i hs hd
    rw [dispatch_noRoute hd]
    have := @runSteps_checks_length x req g.router.noRoute (Exchange.start g [] 404)
    rw [hr] at this ⊢
    simp only [Exchange.start, Middleware.Ctx.start, List.length_nil, zero_add] at this
    dsimp only
    split
    · rw [Exchange.write_checks]
      exact this.trans hnone
    · exact this.trans hnone

theorem profile_request_checked_at_most_twice :
    ∃ g, start plainExt (.decoded onePerMinute) false 0 = .ok g ∧
      g.router = setupRoutes g.middlewareManager false ∧
      (handle plainExt g (clientRequest "/api/profile" [] 0)).ctx.checks.length ≤
        2 * if g.middlewareManager.config.rateLimit.enabled then 1 else 0 :=
  ⟨_, rfl, rfl, checkLimit_at_most_twice plainExt _ false rfl _⟩

theorem first_profile_request_limited :
    ∃ g, start plainExt (.decoded onePerMinute) false 0 = .ok g ∧
      (handle plainExt g (clientRequest "/api/profile" [] 0)).ctx.checks =
        [("10.0.0.1", .ok true), ("10.0.0.1", .ok false)] ∧
      (handle plainExt g (clientRequest "/api/profile" [] 0)).ctx.status = 429 :=
  ⟨_, rfl, rfl, rfl⟩

/-- Rate limiting on with a default rule of two requests a minute, and a per-user rule of a
hundred requests a minute for `user123`. -/
def perUserConfig : Config :=
  { onePerMinute with
    rateLimit := ⟨true, "sliding_window", ⟨2, 60 * Time.second, 1⟩,
      [("user123", ⟨100, 60 * Time.second, 10⟩)], []⟩ }

/-- `GET /api/profile` with the token `tok` of `user123`, from `remote`. -/
def profileRequest (remote : String) : Request :=
  { clientRequest "/api/profile" [("Authorization", "Bearer tok")] 0 with remoteAddr := remote }

/-- The manager registers the rule of `user123` under `user:user123`, but every chain runs
`RateLimit` before `JWTAuth`, so the stage keys the user's requests by the client address under
the default rule: the first request of `user123` is served and uses up the default allowance of
two calls, and the second is refused although the user's rule admits a hundred requests. -/
theorem user_rule_not_applied :
    ∃ g, start tokExt (.decoded perUserConfig) false 0 = .ok g ∧
      (g.rateLimiter.algorithms "user:user123").isSome ∧
      (handle tokExt g (profileRequest "10.0.0.1:5000")).ctx.checks =
        [("10.0.0.1", .ok true), ("10.0.0.1", .ok true)] ∧
      (handle tokExt g (profileRequest "10.0.0.1:5000")).ctx.status = 200 ∧
      (handle tokExt (handle tokExt g (profileRequest "10.0.0.1:5000")).gw
        (profileRequest "10.0.0.1:5000")).ctx.checks = [("10.0.0.1", .ok false)] ∧
      (handle tokExt (handle tokExt g (profileRequest "10.0.0.1:5000")).gw
        (profileRequest "10.0.0.1:5000")).ctx.status = 429 :=
  ⟨_, rfl, rfl, rfl, rfl, rfl, rfl⟩

section Key

open Middleware

variable {x : Ext}

/-- The remote address of `gin.New()`'s `ClientIP` decides the key when neither forwarding
header holds a list of addresses. -/
theorem clientIP_of_headers_none {req : Request}
    (hf : validateHeader x (req.header "X-Forwarded-For") = none)
    (hr : validateHeader x (req.header "X-Real-Ip") = none) :
    clientIP x req = ((Net.parseIP x.parseIPv6 (remoteIP req)).map Net.IP.toString).getD "" := by
  unfold clientIP
  split <;> simp_all [isTrustedProxy]

theorem rateLimitKey_of_no_user {req : Request} {c : Ctx} (hu : c.user = none) :
    rateLimitKey x req c = clientIP x req := by
  simp [rateLimitKey, hu]

/-- Two requests without claims from one remote address get the same key when neither carries an
`X-Forwarded-For` or `X-Real-IP` header of addresses. -/
theorem rateLimitKey_of_remote (x : Ext) (req req' : Request) (c c' : Ctx) (hu : c.user = none)
    (hu' : c'.user = none) (hr : req.remoteAddr = req'.remoteAddr)
    (hh : ∀ name ∈ ["X-Forwarded-For", "X-Real-Ip"],
      validateHeader x (req.header name) = none ∧ validateHeader x (req'.header name) = none) :
    rateLimitKey x req c = rateLimitKey x req' c' := by
  obtain ⟨hf, hf'⟩ := hh "X-Forwarded-For" (by simp)
  obtain ⟨hx, hx'⟩ := hh "X-Real-Ip" (by simp)
  rw [rateLimitKey_of_no_user hu, rateLimitKey_of_no_user hu', clientIP_of_headers_none hf hx,
    clientIP_of_headers_none hf' hx', remoteIP, remoteIP, hr]

theorem rateLimitKey_of_remote_same_peer :
    (clientRequest "/health" [] 0).remoteAddr = (clientRequest "/info" [] 1).remoteAddr ∧
    (∀ name ∈ ["X-Forwarded-For", "X-Real-Ip"],
      validateHeader plainExt ((clientRequest "/health" [] 0).header name) = none ∧
      validateHeader plainExt ((clientRequest "/info" [] 1).header name) = none) ∧
    rateLimitKey plainExt (clientRequest "/health" [] 0) (Ctx.start [] 200) =
      rateLimitKey plainExt (clientRequest "/info" [] 1) (Ctx.start [] 200) :=
  have hh : ∀ name ∈ ["X-Forwarded-For", "X-Real-Ip"],
      validateHeader plainExt ((clientRequest "/health" [] 0).header name) = none ∧
      validateHeader plainExt ((clientRequest "/info" [] 1).header name) = none := by decide
  ⟨rfl, hh, rateLimitKey_of_remote plainExt _ _ _ _ rfl rfl rfl hh⟩

/-- Over entries that are all addresses, `validateHeader`'s loop reaches the first entry. -/
theorem validateItems_addresses (first : String) (hfirst : (Net.parseIP x.parseIPv6 first).isSome) :
    ∀ l : List String, (∀ a ∈ l, (Net.parseIP x.parseIPv6 a).isSome) →
      validateItems x (l ++ [first]) = some first
  | [], _ => by
    obtain ⟨ip, hip⟩ := Option.isSome_iff_exists.mp hfirst
    simp [validateItems, hip]
  | a :: l, hl => by
    obtain ⟨ip, hip⟩ := Option.isSome_iff_exists.mp (hl a (List.mem_cons_self _ _))
    obtain ⟨b, bs, hb⟩ := List.exists_cons_of_ne_nil (List.append_ne_nil_of_right_ne_nil l
      (List.cons_ne_nil first []))
    have ih := validateItems_addresses first hfirst l fun a ha => hl a (List.mem_cons_of_mem _ ha)
    rw [List.cons_append, hb] at *
    simp only [validateItems, hip, isTrustedProxy, if_true, ih]

/-- A request without claims whose `X-Forwarded-For` header lists addresses, from a peer with an
address, is limited under the first address of the header. -/
theorem rateLimitKey_forwarded (x : Ext) (req : Request) (c : Ctx) (hu : c.user = none)
    (first : String) (rest : List String) (hne : req.header "X-Forwarded-For" ≠ "")
    (hsplit : (Strings.split (req.header "X-Forwarded-For") ',').map Net.trimSpace = first :: rest)
    (haddr : ∀ a ∈ first :: rest, (Net.parseIP x.parseIPv6 a).isSome)
    (hpeer : (Net.parseIP x.parseIPv6 (remoteIP req)).isSome) :
    rateLimitKey x req c = first := by
  have hv : validateHeader x (req.header "X-Forwarded-For") = some first := by
    rw [validateHeader, if_neg hne, hsplit, List.reverse_cons]
    exact validateItems_addresses first (haddr first (List.mem_cons_self _ _)) _
      fun a ha => haddr a (List.mem_cons_of_mem _ (List.mem_reverse.mp ha))
  obtain ⟨ip, hip⟩ := Option.isSome_iff_exists.mp hpeer
  rw [rateLimitKey_of_no_user hu, clientIP, hip]
  simp [isTrustedProxy, hv]

theorem rateLimitKey_forwarded_one_address :
    (clientRequest "/health" [("X-Forwarded-For", "1.2.3.4")] 0).header "X-Forwarded-For" ≠ "" ∧
    (Strings.split ((clientRequest "/health" [("X-Forwarded-For", "1.2.3.4")] 0).header
      "X-Forwarded-For") ',').map Net.trimSpace = ["1.2.3.4"] ∧
    (∀ a ∈ ["1.2.3.4"], (Net.parseIP plainExt.parseIPv6 a).isSome) ∧
    (Net.parseIP plainExt.parseIPv6 (remoteIP (clientRequest "/health" [("X-Forwarded-For", "1.2.3.4")] 0))).isSome ∧
    rateLimitKey plainExt (clientRequest "/health" [("X-Forwarded-For", "1.2.3.4")] 0)
      (Ctx.start [] 200) = "1.2.3.4" :=
  have hne : (clientRequest "/health" [("X-Forwarded-For", "1.2.3.4")] 0).header
      "X-Forwarded-For" ≠ "" := by decide
  have hs : (Strings.split ((clientRequest "/health" [("X-Forwarded-For", "1.2.3.4")] 0).header
      "X-Forwarded-For") ',').map Net.trimSpace = ["1.2.3.4"] := by decide
  have ha : ∀ a ∈ ["1.2.3.4"], (Net.parseIP plainExt.parseIPv6 a).isSome := by decide
  have hp : (Net.parseIP plainExt.parseIPv6
      (remoteIP (clientRequest "/health" [("X-Forwarded-For", "1.2.3.4")] 0))).isSome := by decide
  ⟨hne, hs, ha, hp, rateLimitKey_forwarded plainExt _ _ rfl "1.2.3.4" [] hne hs ha hp⟩

end Key

/-- A client with rate limiting at one request per minute sends two requests to `/health` in
one second, the second with `X-Forwarded-For: 1.2.3.4`: each is checked under its own key, and
both pass. -/
theorem forwarded_request_gets_own_allowance :
    ∃ g, start plainExt (.decoded onePerMinute) false 0 = .ok g ∧
      ((run plainExt g [.request (clientRequest "/health" [] 0),
        .request (clientRequest "/health" [("X-Forwarded-For", "1.2.3.4")] Time.second)]).2.map
          (·.checks)) = [[("10.0.0.1", .ok true)], [("1.2.3.4", .ok true)]] :=
  ⟨_, rfl, rfl⟩

end Gateway
end ApiGateway
