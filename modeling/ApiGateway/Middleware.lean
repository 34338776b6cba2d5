import ApiGateway.Http
import ApiGateway.Net
import ApiGateway.RateLimit.Manager

/-!
# ApiGateway.Middleware

`middleware.Manager`, its chains and its stages, with gin's `ClientIP` for the engine that
`gin.New()` builds.

A stage acts on the context of the request, on the shared rate limiter and on its store, and
either continues (`c.Next()`) or aborts. The stages that only log, measure or recover
(`RequestID`, `Logger`, `Recovery`, `Metrics`) continue and change nothing here; the request id
that `RequestID` sets is modelled apart, in `ApiGateway.Middleware.RequestID`. Every `CheckLimit` call of a request is made at the request's instant, and its
key is recorded in the context.

`gin.New()` trusts every address as a proxy (`0.0.0.0/0` and `::/0`) and reads the client
address from `X-Forwarded-For`, then `X-Real-IP`: `clientIP` is that function.

* `rateLimit_key`: the key the `RateLimit` stage passes to `CheckLimit`.
* `jwtAuth_next`, `requireRole_next`: what the authentication stages check when they continue.
-/

namespace ApiGateway
namespace Middleware

/-- `Context.RemoteIP()`: the host of the remote address, empty when it does not split. -/
def remoteIP (req : Request) : String :=
  match Net.splitHostPort (Net.trimSpace req.remoteAddr) with
  | some (host, _) => host
  | none => ""

/-- `Engine.isTrustedProxy` for `gin.New()`, which trusts `0.0.0.0/0` and `::/0`. -/
def isTrustedProxy (_ip : Net.IP) : Bool := true

/-- The loop of `Engine.validateHeader` over the entries of the header from the last one back:
an entry that is not an address ends it with none; the first entry, or one that is not a
trusted proxy, is the client. -/
def validateItems (x : Ext) : List String → Option String
  | [] => none
  | [first] => (Net.parseIP x.parseIPv6 first).map fun _ => first
  | item :: rest =>
    match Net.parseIP x.parseIPv6 item with
    | none => none
    | some ip => if isTrustedProxy ip then validateItems x rest else some item

/-- `Engine.validateHeader(header)`. -/
def validateHeader (x : Ext) (header : String) : Option String :=
  if header = "" then none
  else validateItems x ((Strings.split header ',').map Net.trimSpace).reverse

/-- `Context.ClientIP()` for the engine of `gin.New()`. -/
def clientIP (x : Ext) (req : Request) : String :=
  match Net.parseIP x.parseIPv6 (remoteIP req) with
  | none => ""
  | some ip =>
    if isTrustedProxy ip then
      match validateHeader x (req.header "X-Forwarded-For") with
      | some a => a
      | none =>
        match validateHeader x (req.header "X-Real-Ip") with
        | some a => a
        | none => ip.toString
    else ip.toString

/-- `middleware.Manager`: the configuration it was built with and the authenticator it checks
tokens with. Its rate limiter is the gateway's. -/
structure Manager where
  config : Config
  jwtAuth : Auth.JWTAuth

/-- The middleware functions of `middleware.Manager`. -/
inductive Stage where
  | requestID
  | logger
  | recovery
  | metrics
  | cors
  | rateLimit
  | jwtAuth
  | requireRole (role : String)
  deriving DecidableEq, Repr

namespace Manager

/-- `CreateDefaultChain()`. -/
def createDefaultChain (m : Manager) : List Stage :=
  [.requestID, .logger, .recovery, .metrics] ++
    (if m.config.server.cors.enabled then [.cors] else []) ++
    (if m.config.rateLimit.enabled then [.rateLimit] else [])

/-- `CreateAuthChain()`. -/
def createAuthChain (m : Manager) : List Stage := m.createDefaultChain ++ [.jwtAuth]

/-- `CreateAdminChain()`. -/
def createAdminChain (m : Manager) : List Stage :=
  m.createDefaultChain ++ [.jwtAuth, .requireRole "admin"]

end Manager

/-- The part of `gin.Context` the stages and handlers read and write: the claims stored under
`user`, the route's parameters, the response so far, and the `CheckLimit` calls made, with their
keys and results. -/
structure Ctx where
  user : Option Auth.Claims
  params : List (String × String)
  status : Nat
  headers : List (String × String)
  body : Body
  checks : List (String × Except String Bool)

namespace Ctx

/-- A context before any handler ran, with the status gin starts from. -/
def start (params : List (String × String)) (status : Nat) : Ctx :=
  ⟨none, params, status, [], .empty, []⟩

/-- `c.Header(key, value)`. -/
def setHeader (c : Ctx) (key value : String) : Ctx :=
  { c with headers := c.headers.filter (·.1 ≠ key) ++ [(key, value)] }

/-- `c.JSON(code, body)` and the other writes of a status and a body. -/
def write (c : Ctx) (code : Nat) (body : Body) : Ctx := { c with status := code, body := body }

/-- The response the context holds. -/
def response (c : Ctx) : Response := ⟨c.status, c.headers, c.body⟩

@[simp] theorem setHeader_checks (c : Ctx) (key value : String) :
    (c.setHeader key value).checks = c.checks := rfl

@[simp] theorem write_checks (c : Ctx) (code : Nat) (body : Body) :
    (c.write code body).checks = c.checks := rfl

end Ctx

/-- Whether a stage called `c.Next()` or aborted. -/
inductive Flow where
  | next
  | abort
  deriving DecidableEq, Repr

/-- What a stage leaves: its flow, the context, the rate limiter and its store. -/
structure Pass where
  flow : Flow
  ctx : Ctx
  limiter : RateLimit.Manager
  store : RateLimit.Store

/-- The `CORS()` stage. -/
def cors (m : Manager) (req : Request) (c : Ctx) : Flow × Ctx :=
  let cc := m.config.server.cors
  let origin := req.header "Origin"
  let c :=
    if cc.allowedOrigins = [] then c
    else if origin ≠ "" ∧ origin ∈ cc.allowedOrigins then c.setHeader "Access-Control-Allow-Origin" origin
    else if "*" ∈ cc.allowedOrigins then c.setHeader "Access-Control-Allow-Origin" "*"
    else c
  let c := if cc.allowedMethods = [] then c
    else c.setHeader "Access-Control-Allow-Methods" (", ".intercalate cc.allowedMethods)
  let c := if cc.allowedHeaders = [] then c
    else c.setHeader "Access-Control-Allow-Headers" (", ".intercalate cc.allowedHeaders)
  let c := (c.setHeader "Access-Control-Allow-Credentials" "true").setHeader
    "Access-Control-Max-Age" "86400"
  if req.method = "OPTIONS" then (.abort, c.write 204 .empty) else (.next, c)

/-- The key of the `RateLimit()` stage: the user's id, or the client address when there is no
user or the id is empty. -/
def rateLimitKey (x : Ext) (req : Request) (c : Ctx) : String :=
  let key := match c.user with
    | some claims => claims.userID
    | none => ""
  if key = "" then clientIP x req else key

/-- The `RateLimit()` stage. -/
def rateLimit (x : Ext) (req : Request) (c : Ctx) (limiter : RateLimit.Manager)
    (store : RateLimit.Store) : Pass :=
  let key := rateLimitKey x req c
  match limiter.checkLimit store key req.now with
  | (result, limiter, store) =>
    let c := { c with checks := c.checks ++ [(key, result)] }
    match result with
    | .error _ => ⟨.abort, c.write 500 (.error "Rate limit check failed" none), limiter, store⟩
    | .ok false =>
      let c := ((c.setHeader "X-RateLimit-Limit" "100").setHeader "X-RateLimit-Remaining"
        "0").setHeader "Retry-After" "60"
      ⟨.abort, c.write 429 (.error "Rate limit exceeded" (some 60)), limiter, store⟩
    | .ok true => ⟨.next, c, limiter, store⟩

/-- The `JWTAuth()` stage. -/
def jwtAuth (x : Ext) (m : Manager) (req : Request) (c : Ctx) : Flow × Ctx :=
  let authHeader := req.header "Authorization"
  if authHeader = "" then (.abort, c.write 401 (.error "Authorization header required" none))
  else
    match Auth.JWTAuth.extractTokenFromHeader authHeader with
    | .error _ => (.abort, c.write 401 (.error "Invalid authorization header" none))
    | .ok token =>
      match m.jwtAuth.validateToken x.jwt token req.now with
      | .error _ => (.abort, c.write 401 (.error "Invalid token" none))
      | .ok claims => (.next, { c with user := some claims })

/-- The `RequireRole(requiredRole)` stage. -/
def requireRole (requiredRole : String) (c : Ctx) : Flow × Ctx :=
  match c.user with
  | none => (.abort, c.write 401 (.error "User not authenticated" none))
  | some claims =>
    if Auth.JWTAuth.hasRole claims requiredRole then (.next, c)
    else (.abort, c.write 403 (.error "Insufficient permissions" none))

/-- A stage run on a request. -/
def Stage.run (x : Ext) (m : Manager) (req : Request) (c : Ctx) (limiter : RateLimit.Manager)
    (store : RateLimit.Store) : Stage → Pass
  | .requestID | .logger | .recovery | .metrics => ⟨.next, c, limiter, store⟩
  | .cors => let r := Middleware.cors m req c; ⟨r.1, r.2, limiter, store⟩
  | .rateLimit => Middleware.rateLimit x req c limiter store
  | .jwtAuth => let r := Middleware.jwtAuth x m req c; ⟨r.1, r.2, limiter, store⟩
  | .requireRole role => let r := Middleware.requireRole role c; ⟨r.1, r.2, limiter, store⟩

section Stages

variable {x : Ext} {m : Manager} {req : Request} {c : Ctx} {limiter : RateLimit.Manager}
  {store : RateLimit.Store}

theorem cors_checks : (cors m req c).2.checks = c.checks := by
  simp only [cors, apply_ite Prod.snd, apply_ite Ctx.checks, Ctx.setHeader_checks,
    Ctx.write_checks, ite_self]

theorem jwtAuth_checks : (jwtAuth x m req c).2.checks = c.checks := by
  simp only [jwtAuth]
  repeat' split
  all_goals rfl

theorem requireRole_checks {role : String} : (requireRole role c).2.checks = c.checks := by
  simp only [requireRole]
  repeat' split
  all_goals rfl

/-- Only the `RateLimit` stage touches the rate limiter, its store and the recorded keys. -/
theorem Stage.run_of_ne_rateLimit {s : Stage} (hs : s ≠ .rateLimit) :
    (s.run x m req c limiter store).limiter = limiter ∧
      (s.run x m req c limiter store).store = store ∧
      (s.run x m req c limiter store).ctx.checks = c.checks := by
  cases s with
  | rateLimit => exact absurd rfl hs
  | cors => exact ⟨rfl, rfl, cors_checks⟩
  | jwtAuth => exact ⟨rfl, rfl, jwtAuth_checks⟩
  | requireRole role => exact ⟨rfl, rfl, requireRole_checks⟩
  | _ => exact ⟨rfl, rfl, rfl⟩

/-- The `RateLimit` stage makes one `CheckLimit` call, with `rateLimitKey`. -/
theorem rateLimit_key :
    (rateLimit x req c limiter store).ctx.checks =
      c.checks ++ [(rateLimitKey x req c, (limiter.checkLimit store (rateLimitKey x req c) req.now).1)] := by
  simp only [rateLimit]
  split <;> rfl

/-- The `JWTAuth` stage continues only for a header `Bearer <token>` whose token has no space
and validates, and it then stores the token's claims. -/
theorem jwtAuth_next {c' : Ctx} (h : jwtAuth x m req c = (.next, c')) :
    ∃ token claims, req.header "Authorization" = "Bearer " ++ token ∧ ' ' ∉ token.data ∧
      m.jwtAuth.validateToken x.jwt token req.now = .ok claims ∧ c' = { c with user := some claims } := by
  simp only [jwtAuth] at h
  split at h
  · cases h
  · split at h
    · cases h
    · rename_i token htok
      split at h
      · cases h
      · rename_i claims hv
        cases h
        obtain ⟨hh, hs⟩ := Auth.JWTAuth.extractTokenFromHeader_ok htok
        exact ⟨token, claims, hh, hs, hv, rfl⟩

/-- The `RequireRole(role)` stage continues only for a stored user holding `role`, and changes
nothing. -/
theorem requireRole_next {role : String} {c' : Ctx} (h : requireRole role c = (.next, c')) :
    ∃ claims, c.user = some claims ∧ role ∈ claims.roles ∧ c' = c := by
  simp only [requireRole] at h
  split at h
  · cases h
  · rename_i claims hu
    split at h
    · cases h
      exact ⟨claims, hu, (Auth.JWTAuth.hasRole_iff _ _).mp ‹_›, rfl⟩
    · cases h

end Stages

end Middleware
end ApiGateway
