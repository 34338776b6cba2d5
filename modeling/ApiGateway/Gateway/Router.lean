import ApiGateway.Middleware

/-!
# ApiGateway.Gateway.Router

The router `Gateway.SetupRoutes` builds on the engine of `gin.New()`, and how gin picks the
handlers of a request.

A route of a group runs the engine's middleware, then the group's handlers, then its own
handler. A request with no route runs the engine's middleware and `proxyRequest`, the `NoRoute`
handler, starting from status `404`; a request whose path has a route once its final slash is
removed is redirected instead, and runs no handler.

For the routes `SetupRoutes` registers (no two patterns of a method overlap, none ends in a
slash), the lookup in gin's trees is a match segment by segment, a parameter matching one
non-empty segment.

* `setupRoutes_handlers`: every route's handlers are the engine's middleware, its group's chain
  and its handler.
-/

namespace ApiGateway
namespace Gateway

/-- The handlers `SetupRoutes` registers: the methods of `Gateway`, and the `GinHandler` of the
metrics manager. -/
inductive Handler where
  | healthCheck
  | metrics
  | gatewayInfo
  | login
  | refreshToken
  | logout
  | getConfig
  | reloadConfig
  | getServices
  | updateService
  | deleteService
  | getStats
  | getDetailedMetrics
  | getCircuitBreakers
  | resetCircuitBreaker
  | getRateLimits
  | resetRateLimit
  | getUserProfile
  | updateUserProfile
  | validateToken
  | proxyRequest
  deriving DecidableEq, Repr

/-- A `gin.HandlerFunc` of a chain: a middleware stage or a handler. -/
inductive Step where
  | stage (s : Middleware.Stage)
  | handler (h : Handler)
  deriving DecidableEq, Repr

/-- A registered route: its method, its path pattern and its handlers. -/
structure Route where
  method : String
  path : String
  handlers : List Step
  deriving DecidableEq, Repr

/-- The engine's router: the routes, and the handlers of a request with none. -/
structure Router where
  routes : List Route
  noRoute : List Step
  deriving DecidableEq, Repr

/-- The handlers of `setupAdminRoutes`. -/
def adminRoutes : List (String × String × Handler) :=
  [("GET", "/admin/config", .getConfig), ("POST", "/admin/config/reload", .reloadConfig),
   ("GET", "/admin/services", .getServices), ("POST", "/admin/services/:name", .updateService),
   ("DELETE", "/admin/services/:name", .deleteService), ("GET", "/admin/stats", .getStats),
   ("GET", "/admin/metrics/detailed", .getDetailedMetrics),
   ("GET", "/admin/circuit-breakers", .getCircuitBreakers),
   ("POST", "/admin/circuit-breakers/:name/reset", .resetCircuitBreaker),
   ("GET", "/admin/rate-limits", .getRateLimits),
   ("POST", "/admin/rate-limits/:key/reset", .resetRateLimit)]

/-- The handlers of `setupProtectedRoutes`. -/
def apiRoutes : List (String × String × Handler) :=
  [("GET", "/api/profile", .getUserProfile), ("PUT", "/api/profile", .updateUserProfile),
   ("GET", "/api/validate", .validateToken)]

/-- The handlers of the `/admin` group. -/
def adminHandlers : List Handler := adminRoutes.map (·.2.2)

/-- The handlers of the `/api` group. -/
def apiHandlers : List Handler := apiRoutes.map (·.2.2)

/-- The routes of a group whose handlers are `group`. -/
def groupRoutes (group : List Step) (routes : List (String × String × Handler)) : List Route :=
  routes.map fun (method, path, h) => ⟨method, path, group ++ [.handler h]⟩

/-- `SetupRoutes()` for the middleware manager `mm`, with `prometheus` telling whether
`Monitoring.Prometheus.Enabled` holds. -/
def setupRoutes (mm : Middleware.Manager) (prometheus : Bool) : Router :=
  let global := mm.createDefaultChain.map .stage
  let authLast := (mm.createAuthChain.getLast?.map .stage).toList
  let public := [("GET", "/health", Handler.healthCheck)] ++
    (if prometheus then [("GET", "/metrics", Handler.metrics)] else []) ++
    [("GET", "/info", Handler.gatewayInfo)]
  { routes :=
      groupRoutes global public ++
      [⟨"POST", "/auth/login", global ++ [.handler .login]⟩,
       ⟨"POST", "/auth/refresh", global ++ authLast ++ [.handler .refreshToken]⟩,
       ⟨"POST", "/auth/logout", global ++ authLast ++ [.handler .logout]⟩] ++
      groupRoutes (global ++ mm.createAdminChain.map .stage) adminRoutes ++
      groupRoutes (global ++ mm.createAuthChain.map .stage) apiRoutes
    noRoute := global ++ [.handler .proxyRequest] }

/-- The parameters of a path for a pattern, segment by segment, when it matches. -/
def matchSegments : List String → List String → Option (List (String × String))
  | [], [] => some []
  | p :: ps, s :: ss =>
    if p.data.head? = some ':' then
      if s = "" then none else (matchSegments ps ss).map ((⟨p.data.tail⟩, s) :: ·)
    else if p = s then matchSegments ps ss
    else none
  | _, _ => none

/-- The parameters of `path` for the pattern `pattern`, when it matches. -/
def matchPath (pattern path : String) : Option (List (String × String)) :=
  matchSegments (Strings.split pattern '/') (Strings.split path '/')

/-- The handlers and parameters of the route of `method` that `path` matches. -/
def Router.lookup (r : Router) (method path : String) : Option (List Step × List (String × String)) :=
  r.routes.findSome? fun route =>
    if route.method = method then (matchPath route.path path).map (route.handlers, ·) else none

/-- What gin does with a request. -/
inductive Dispatch where
  | route (handlers : List Step) (params : List (String × String))
  | redirect (status : Nat)
  | noRoute (handlers : List Step)
  deriving DecidableEq, Repr

/-- `handleHTTPRequest`, up to running handlers. -/
def Router.dispatch (r : Router) (method path : String) : Dispatch :=
  match r.lookup method path with
  | some (handlers, params) => .route handlers params
  | none =>
    if method ≠ "CONNECT" ∧ path ≠ "/" ∧ path.data.getLast? = some '/' ∧
        (r.lookup method ⟨path.data.dropLast⟩).isSome then
      .redirect (if method = "GET" then 301 else 307)
    else .noRoute r.noRoute

theorem dispatch_route {r : Router} {method path : String} {hs : List Step}
    {params : List (String × String)} (h : r.dispatch method path = .route hs params) :
    r.lookup method path = some (hs, params) := by
  unfold Router.dispatch at h
  split at h
  · cases h; assumption
  · split at h <;> cases h

theorem dispatch_noRoute {r : Router} {method path : String} {hs : List Step}
    (h : r.dispatch method path = .noRoute hs) : hs = r.noRoute := by
  unfold Router.dispatch at h
  split at h
  · cases h
  · split at h <;> cases h; rfl

theorem lookup_mem {r : Router} {method path : String} {hs : List Step}
    {params : List (String × String)} (h : r.lookup method path = some (hs, params)) :
    ∃ route ∈ r.routes, route.handlers = hs := by
  obtain ⟨route, hmem, hroute⟩ := List.exists_of_findSome?_eq_some h
  refine ⟨route, hmem, ?_⟩
  split at hroute
  · obtain ⟨_, _, he⟩ := Option.map_eq_some'.mp hroute
    cases he
    rfl
  · cases hroute

/-- What a route of handler `h` must have run through last, for the handlers of the protected
groups: `JWTAuth`, then `RequireRole("admin")` for the `/admin` group. -/
def Guarded (h : Handler) (stages : List Middleware.Stage) : Prop :=
  (h ∈ adminHandlers → ∃ l, stages = l ++ [.jwtAuth, .requireRole "admin"]) ∧
    (h ∈ apiHandlers ∨ h = .refreshToken ∨ h = .logout → ∃ l, stages = l ++ [.jwtAuth])

/-- The handlers outside the protected groups. -/
def unprotected : List Handler := [.healthCheck, .metrics, .gatewayInfo, .login, .proxyRequest]

theorem guarded_of_unprotected {h : Handler} (stages : List Middleware.Stage) (hu : h ∈ unprotected) :
    Guarded h stages := by
  have hsep : ∀ h ∈ unprotected,
      h ∉ adminHandlers ∧ h ∉ apiHandlers ∧ h ≠ .refreshToken ∧ h ≠ .logout := by decide
  obtain ⟨ha, hp, hr, hl⟩ := hsep h hu
  exact ⟨fun h' => absurd h' ha, fun h' => by
    rcases h' with h' | h' | h'
    exacts [absurd h' hp, absurd h' hr, absurd h' hl]⟩

theorem guarded_groupRoutes {group : List Middleware.Stage} {routes : List (String × String × Handler)}
    (hg : ∀ r ∈ routes, Guarded r.2.2 group) :
    ∀ route ∈ groupRoutes (group.map .stage) routes, ∃ stages h,
      route.handlers = stages.map .stage ++ [.handler h] ∧ Guarded h stages := by
  intro route hroute
  obtain ⟨⟨method, path, h⟩, hmem, rfl⟩ := List.mem_map.mp hroute
  exact ⟨group, h, rfl, hg _ hmem⟩

/-- Every route `SetupRoutes` registers runs stages, then its handler; the handlers of the
protected groups run `JWTAuth` last, and those of `/admin` then `RequireRole("admin")`. -/
theorem setupRoutes_handlers (mm : Middleware.Manager) (prometheus : Bool) :
    ∀ route ∈ (setupRoutes mm prometheus).routes, ∃ stages h,
      route.handlers = stages.map .stage ++ [.handler h] ∧ Guarded h stages := by
  have hlast : mm.createAuthChain.getLast? = some .jwtAuth := by
    simp [Middleware.Manager.createAuthChain]
  have hadmin : ∀ h ∈ adminHandlers, h ∉ apiHandlers ∧ h ≠ .refreshToken ∧ h ≠ .logout := by
    decide
  have hapi : ∀ h ∈ apiHandlers, h ∉ adminHandlers := by decide
  have hpublic : ∀ r ∈ ([("GET", "/health", Handler.healthCheck)] ++
      (if prometheus then [("GET", "/metrics", Handler.metrics)] else []) ++
      [("GET", "/info", Handler.gatewayInfo)]), r.2.2 ∈ unprotected := by
    cases prometheus <;> decide
  intro route hroute
  simp only [setupRoutes, hlast, List.mem_append, List.mem_cons, List.mem_singleton,
    List.not_mem_nil, or_false] at hroute
  rcases hroute with (((hpub | rfl | rfl | rfl) | hadm) | hap)
  · exact guarded_groupRoutes (fun r hr => guarded_of_unprotected _ (hpublic r hr)) route hpub
  · exact ⟨_, _, rfl, guarded_of_unprotected _ (by decide)⟩
  · exact ⟨mm.createDefaultChain ++ [.jwtAuth], .refreshToken, by simp,
      fun h => absurd h (by decide), fun _ => ⟨_, rfl⟩⟩
  · exact ⟨mm.createDefaultChain ++ [.jwtAuth], .logout, by simp,
      fun h => absurd h (by decide), fun _ => ⟨_, rfl⟩⟩
  · rw [← List.map_append] at hadm
    refine guarded_groupRoutes (fun r hr => ⟨fun _ => ⟨mm.createDefaultChain ++ mm.createDefaultChain,
      by simp [Middleware.Manager.createAdminChain]⟩, fun h => ?_⟩) route hadm
    obtain ⟨hp, hr', hl⟩ := hadmin _ (List.mem_map_of_mem _ hr)
    rcases h with h | h | h
    exacts [absurd h hp, absurd h hr', absurd h hl]
  · rw [← List.map_append] at hap
    refine guarded_groupRoutes (fun r hr => ⟨fun h => absurd h (hapi _ (List.mem_map_of_mem _ hr)),
      fun _ => ⟨mm.createDefaultChain ++ mm.createDefaultChain,
        by simp [Middleware.Manager.createAuthChain]⟩⟩) route hap

end Gateway
end ApiGateway
