import Mathlib.Logic.Function.Basic
import ApiGateway.Http
import ApiGateway.LoadBalancer

/-!
# ApiGateway.Proxy

`proxy.ReverseProxy` and `proxy.ProxyManager`.

`ServeHTTP` asks the load balancer for a target and forwards the request to it through
`httputil.ReverseProxy`, inside `http.TimeoutHandler` when the service has a timeout. What the
backend does is the request's `upstream`. A transport error goes to `handleProxyError`, which
marks the target unhealthy (for the balancers that track health) and answers `504` for a
timeout and `502` otherwise; when the timeout handler gives up first it answers `503`, and the
cancelled request still ends in `handleProxyError`.

A request asking to switch to a protocol whose name is not printable ASCII is never sent:
`httputil` hands the error to `handleProxyError` before anything else (`outcome`). The headers
involved are `http.Header` values, with the token matching of `httpguts`.

When the body of an answer breaks off, `httputil` has already set the status and copied what
came of the body; it then panics with `http.ErrAbortHandler`, and `TimeoutHandler`, which
buffers the answer and drops it, panics again with the same value. `ServeHTTP` does not return
then: `Served.aborted` says so, and the response is what reached the writer.

The retries and the service name a proxy keeps are never read on this path, and are left out.
-/

namespace ApiGateway
namespace Proxy

/-- `http.Header`: the values of each canonical name, in order; a name without values is not
in the map. -/
def Header : Type := String → List String

namespace Header

/-- An empty `http.Header`. -/
def empty : Header := fun _ => []

/-- `Header.Get(key)`: the first value, or the empty string. -/
def get (h : Header) (key : String) : String := (h key).headD ""

/-- `Header.Set(key, value)`. -/
def set (h : Header) (key value : String) : Header := Function.update h key [value]

/-- `Header.Del(key)`. -/
def del (h : Header) (key : String) : Header := Function.update h key []

theorem set_self (h : Header) (key value : String) : h.set key value key = [value] :=
  Function.update_same _ _ _

theorem set_ne (h : Header) {key key' : String} (hk : key' ≠ key) (value : String) :
    h.set key value key' = h key' :=
  Function.update_noteq hk _ _

theorem del_self (h : Header) (key : String) : h.del key key = [] :=
  Function.update_same _ _ _

theorem del_ne (h : Header) {key key' : String} (hk : key' ≠ key) : h.del key key' = h key' :=
  Function.update_noteq hk _ _

end Header

/-- The header a handler sees: the client's lines under each canonical name, in order, without
`Host`, which `net/http` keeps in `Request.Host` instead. -/
def ofRequest (req : Request) : Header :=
  Header.del (fun key => (req.headers.filter (·.1 = key)).map (·.2)) "Host"

theorem ofRequest_get (req : Request) {key : String} (hk : key ≠ "Host") :
    (ofRequest req).get key = req.header key := by
  simp only [ofRequest, Header.get, Header.del_ne _ hk, Request.header]
  induction req.headers with
  | nil => rfl
  | cons l ls ih =>
    obtain ⟨k, v⟩ := l
    by_cases hl : k = key
    · subst hl
      simp [List.lookup_cons_self]
    · simp only [List.filter_cons, hl, decide_False, Bool.false_eq_true, if_false, List.lookup_cons,
        beq_false_of_ne (Ne.symm hl), ih]

theorem ofRequest_host (req : Request) : (ofRequest req).get "Host" = "" := by
  rw [Header.get, ofRequest, Header.del_self]
  rfl

/-- `isOWS` of `httpguts`: optional white space. -/
def isOWS (c : Char) : Bool := c = ' ' || c = '\t'

/-- `trimOWS` of `httpguts`: optional white space cut from both ends. -/
def trimOWS (s : String) : String :=
  ⟨((s.data.dropWhile isOWS).reverse.dropWhile isOWS).reverse⟩

/-- `tokenEqual(t1, t2)` of `httpguts`, for an ASCII `t2`: `t1` is ASCII and equals `t2` up to the
case of its letters. -/
def tokenEqual (t1 t2 : String) : Bool :=
  t1.data.all (·.toNat < 128) && t1.data.map Char.toLower == t2.data.map Char.toLower

/-- `headerValueContainsToken(v, token)` of `httpguts`: an item of `v` between commas is `token`,
once its optional white space is cut. -/
def headerValueContainsToken (v token : String) : Bool :=
  (Strings.split v ',').any fun item => tokenEqual (trimOWS item) token

/-- `httpguts.HeaderValuesContainsToken(values, token)`. -/
def headerValuesContainsToken (values : List String) (token : String) : Bool :=
  values.any (headerValueContainsToken · token)

/-- `ascii.IsPrint(s)` of `net/http`: every byte is printable ASCII. -/
def isPrint (s : String) : Bool := s.data.all fun c => 32 ≤ c.toNat && c.toNat ≤ 126

/-- `upgradeType(h)` of `httputil`: the first `Upgrade` value when `Connection` lists `Upgrade`,
and empty otherwise. -/
def upgradeType (h : Header) : String :=
  if headerValuesContainsToken (h "Connection") "Upgrade" then h.get "Upgrade" else ""

/-- What comes back of a request sent to `target`. `httputil` first reads the upgrade type of the
header the director left, which is the client's, since the director sets neither `Connection` nor
`Upgrade`: when it is not printable ASCII, the request is never sent, and the error goes to
`handleProxyError` at once; it is not a timeout. Otherwise it is what the backend does. -/
def outcome (req : Request) (target : String) : Upstream :=
  if isPrint (upgradeType (ofRequest req)) then req.upstream target else .fails false 0

/-- `proxy.ReverseProxy`: its load balancer and its timeout. -/
structure ReverseProxy where
  loadBalancer : LoadBalancer
  timeout : Int
  deriving DecidableEq, Repr

/-- The load balancer `NewReverseProxy` builds for a configuration's `LoadBalancer`. -/
def balancer (name : String) (targets : List String) : LoadBalancer :=
  match name with
  | "weighted_round_robin" => LoadBalancer.newWeightedRoundRobin targets []
  | "least_connections" => LoadBalancer.newLeastConnections targets
  | "random" => LoadBalancer.newRandom targets
  | _ => LoadBalancer.newRoundRobin targets

/-- The loop of `NewReverseProxy` over the URLs: each parsed, or the error of the first that
does not parse. -/
def parseTargets (x : Ext) : List String → Except String (List String)
  | [] => .ok []
  | u :: us =>
    match x.parseURL u with
    | .error e => .error ("invalid target URL " ++ u ++ ": " ++ e)
    | .ok target =>
      match parseTargets x us with
      | .ok targets => .ok (target :: targets)
      | .error e => .error e

/-- `NewReverseProxy(serviceName, cfg, metrics, logger)`. -/
def newReverseProxy (x : Ext) (cfg : ServiceConfig) : Except String ReverseProxy :=
  match parseTargets x cfg.urls with
  | .ok targets => .ok ⟨balancer cfg.loadBalancer targets, cfg.timeout⟩
  | .error e => .error e

/-- `http.Error(w, msg, code)`. -/
def httpError (msg : String) (code : Nat) : Response :=
  ⟨code, [("Content-Type", "text/plain; charset=utf-8"), ("X-Content-Type-Options", "nosniff")],
    .text (msg ++ "\n")⟩

/-- What `ServeHTTP` leaves: the response, the target the request went to, the proxy after it,
the time it took, and whether it ended in the panic of an aborted answer. -/
structure Served where
  response : Response
  target : Option String
  proxy : ReverseProxy
  elapsed : Int
  aborted : Bool

/-- `ServeHTTP(w, r)`. When the answer aborts, a writer that nothing reached shows the status `200`
that `captureResponseWriter` starts from and no body. -/
def ReverseProxy.serveHTTP (rp : ReverseProxy) (req : Request) : Served :=
  match rp.loadBalancer.nextTarget req.draw with
  | (none, lb) => ⟨httpError "Service Unavailable" 503, none, { rp with loadBalancer := lb }, 0, false⟩
  | (some target, lb) =>
    let outcome := outcome req target
    if 0 < rp.timeout ∧ rp.timeout < outcome.latency then
      ⟨⟨503, [], .text "Gateway Timeout"⟩, some target,
        { rp with loadBalancer := lb.markUnhealthy target }, rp.timeout, false⟩
    else
      match outcome with
      | .responds status latency =>
        ⟨⟨status, [], .upstream target⟩, some target, { rp with loadBalancer := lb }, latency, false⟩
      | .fails timeout latency =>
        ⟨if timeout then httpError "Gateway Timeout" 504 else httpError "Bad Gateway" 502,
          some target, { rp with loadBalancer := lb.markUnhealthy target }, latency, false⟩
      | .aborts status sent latency =>
        ⟨if 0 < rp.timeout then ⟨200, [], .empty⟩
          else ⟨status, [], if sent then .cut target else .empty⟩,
          some target, { rp with loadBalancer := lb }, latency, true⟩

/-- `proxy.ProxyManager`: the proxies by service name. -/
structure ProxyManager where
  proxies : String → Option ReverseProxy

namespace ProxyManager

/-- `NewProxyManager(logger, metrics)`. -/
def new : ProxyManager := ⟨fun _ => none⟩

/-- `GetProxy(service)`. -/
def getProxy (pm : ProxyManager) (service : String) : Option ReverseProxy := pm.proxies service

/-- A proxy built for `cfg` stored under `name`, or the error of `NewReverseProxy` after
`failure`: `AddService` and `UpdateService`. -/
def putService (x : Ext) (failure : String) (pm : ProxyManager) (name : String)
    (cfg : ServiceConfig) : Except String ProxyManager :=
  match newReverseProxy x cfg with
  | .ok proxy => .ok ⟨Function.update pm.proxies name (some proxy)⟩
  | .error e => .error (failure ++ name ++ ": " ++ e)

/-- `AddService(name, cfg)`. -/
def addService (x : Ext) : ProxyManager → String → ServiceConfig → Except String ProxyManager :=
  putService x "failed to create proxy for service "

/-- `UpdateService(name, cfg)`. -/
def updateService (x : Ext) : ProxyManager → String → ServiceConfig → Except String ProxyManager :=
  putService x "failed to update proxy for service "

/-- `RemoveService(name)`. -/
def removeService (pm : ProxyManager) (name : String) : ProxyManager :=
  ⟨Function.update pm.proxies name none⟩

/-- The proxy of `service` replaced by `rp`, as `ServeHTTP` changes it in place. -/
def setProxy (pm : ProxyManager) (service : String) (rp : ReverseProxy) : ProxyManager :=
  ⟨Function.update pm.proxies service (some rp)⟩

end ProxyManager
end Proxy
end ApiGateway
