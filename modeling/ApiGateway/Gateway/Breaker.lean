import ApiGateway.Gateway.Access
import ApiGateway.Gateway.Limits

/-!
# ApiGateway.Gateway.Breaker

The circuit breaker of a service as `proxyRequest` uses it.

`proxyRequest` runs `ServeHTTP` inside `CircuitBreaker.Call` with a function that returns `nil`
whatever the backend answered, so a `502`, `503` or `504` answer and a transport error are
successes to the breaker. The one failure it sees is the panic of an answer whose body breaks off:
gobreaker's `Execute` records it before it panics again. A breaker opens only on failures reported
to it, and gobreaker counts consecutive failures within one generation, which lasts the recovery
timeout (`Interval`) while the breaker is closed.

Once open, the breaker answers every request of the service with `503` until its timeout has
passed, and the proxy is not called.

* `proxyRequest_open`: while the breaker of a service is open, `proxyRequest` answers `503` and
  changes nothing.
* `proxyRequest_aborts`: for a request whose answer aborts, the breaker becomes what `Execute` of
  a failed call leaves.
* `aborted_answers_open_breaker`: after `max(uint32(T), 1)` such requests within one generation,
  the service's requests are refused for the recovery timeout.
* `failures_do_not_open_breaker`: failed upstream answers leave the breaker closed.
-/

namespace ApiGateway
namespace Gateway

open Circuit

theorem u32_lt (n : Int) : u32 n < 2 ^ 32 := by
  unfold u32
  omega

theorem beforeRequest_open {b : Breaker} {ex now : Int} (hs : b.state = .open)
    (he : b.expiry = some ex) (hnow : now ≤ ex) :
    b.beforeRequest now = (.error "circuit breaker is open", b) := by
  simp only [Breaker.beforeRequest, Breaker.currentState_open hs he hnow, hs]

/-- Storing the breaker a service already has changes nothing. -/
theorem setBreaker_same {e : Exchange} {name : String} {b : Breaker}
    (h : e.gw.circuitManager.getBreaker name = some ⟨some b⟩) : e.setBreaker name b = e := by
  rcases e with ⟨ctx, ⟨config, configManager, jwtAuth, limiter, store, ⟨breakers⟩, pm, mm, router,
    file⟩, ran, served⟩
  simp only [Manager.getBreaker] at h
  simp only [Exchange.setBreaker, Exchange.modify, ← h, Function.update_eq_self]

/-- While the breaker of a service is open, `proxyRequest` answers `503` without calling the
service's proxy, and changes nothing else. -/
theorem proxyRequest_open {req : Request} {e : Exchange} {name : String} {rest : List String}
    {rp : Proxy.ReverseProxy} {b : Breaker} {ex : Int}
    (hparts : serviceParts req.path = name :: rest)
    (hproxy : e.gw.proxyManager.getProxy name = some rp)
    (hbreaker : e.gw.circuitManager.getBreaker name = some ⟨some b⟩)
    (hs : b.state = .open) (he : b.expiry = some ex) (hnow : req.now ≤ ex) :
    proxyRequest req e = e.write 503 (.error "Service temporarily unavailable" none) := by
  simp only [proxyRequest, hparts, hproxy, hbreaker, beforeRequest_open hs he hnow,
    setBreaker_same hbreaker]

/-- The breaker of a service whose recovery timeout is ten seconds and whose threshold is two. -/
def usersBreaker : CircuitBreakerConfig := ⟨true, 2, 10 * Time.second, 1⟩

/-- The service `users` at `http://users:8080`, behind `usersBreaker`. -/
def usersService : ServiceConfig := ⟨["http://users:8080"], "round_robin", 0, 3, usersBreaker⟩

/-- Rate limiting off; the service `users`. -/
def usersConfig : Config :=
  { onePerMinute with rateLimit := ⟨false, "sliding_window", ⟨100, 60 * Time.second, 10⟩, [], []⟩
                      services := [("users", usersService)] }

/-- A request for `/users/1` at `now` whose backend does `upstream`. -/
def usersRequest (now : Int) (upstream : Upstream) : Request :=
  { clientRequest "/users/1" [] now with upstream := fun _ => upstream }

/-! ### Aborted answers -/

section Aborted

variable {e : Exchange} {name : String}

theorem serve_getProxy (r : Proxy.Served) :
    (e.serve name r).gw.proxyManager.getProxy name = some r.proxy :=
  Function.update_same _ _ _

theorem setBreaker_getBreaker (b : Breaker) :
    (e.setBreaker name b).gw.circuitManager.getBreaker name = some ⟨some b⟩ :=
  Function.update_same _ _ _

@[simp] theorem recoverAbort_gw (aborted : Bool) : (recoverAbort aborted e).gw = e.gw := by
  unfold recoverAbort recovered
  split <;> rfl

/-- A proxy with the timeout `τ` that balances round robin over a list of targets that is not
empty: it finds a target for every request. -/
def RoundRobinProxy (rp : Proxy.ReverseProxy) (τ : Int) : Prop :=
  rp.timeout = τ ∧ ∃ ts c, rp.loadBalancer = .roundRobin ts c ∧ ts ≠ []

/-- `ServeHTTP` of a round-robin proxy, for a request whose answer aborts after `l` wherever it is
sent, within the timeout: it aborts after `l`, and the proxy stays round robin. -/
theorem serveHTTP_aborts {rp : Proxy.ReverseProxy} {τ l : Int} {r : Request}
    (hrp : RoundRobinProxy rp τ) (habort : ∀ t, ∃ s sent, Proxy.outcome r t = .aborts s sent l)
    (hlat : ¬(0 < τ ∧ τ < l)) :
    (rp.serveHTTP r).aborted = true ∧ (rp.serveHTTP r).elapsed = l ∧
      RoundRobinProxy (rp.serveHTTP r).proxy τ := by
  obtain ⟨hτ, ts, c, hlb, hts⟩ := hrp
  obtain ⟨t, ht⟩ : ∃ t, rp.loadBalancer.nextTarget r.draw = (some t, .roundRobin ts ((c + 1) % 2 ^ 64)) := by
    rw [hlb]
    simp only [LoadBalancer.nextTarget, if_neg hts,
      List.getElem?_eq_getElem (Nat.mod_lt _ (List.length_pos.mpr hts))]
    exact ⟨_, rfl⟩
  obtain ⟨s, sent, ho⟩ := habort t
  simp only [Proxy.ReverseProxy.serveHTTP, ht, ho, Upstream.latency, hτ, if_neg hlat]
  exact ⟨trivial, trivial, rfl, ts, _, rfl, hts⟩

/-- `proxyRequest` for a service with a round-robin proxy and a request whose answer aborts after
`l`: the breaker of the service becomes what gobreaker's `Execute` of a failed call leaves, whether
it let the call through or not, and the proxy stays round robin. -/
theorem proxyRequest_aborts {r : Request} {rest : List String} {rp : Proxy.ReverseProxy} {b : Breaker}
    {τ l : Int} (hparts : serviceParts r.path = name :: rest)
    (hproxy : e.gw.proxyManager.getProxy name = some rp) (hrp : RoundRobinProxy rp τ)
    (hbreaker : e.gw.circuitManager.getBreaker name = some ⟨some b⟩)
    (habort : ∀ t, ∃ s sent, Proxy.outcome r t = .aborts s sent l) (hlat : ¬(0 < τ ∧ τ < l)) :
    (proxyRequest r e).gw.circuitManager.getBreaker name =
        some ⟨some (b.call r.now (r.now + l) false).2⟩ ∧
      ∃ rp', (proxyRequest r e).gw.proxyManager.getProxy name = some rp' ∧ RoundRobinProxy rp' τ := by
  obtain ⟨hab, hel, hrp'⟩ := serveHTTP_aborts hrp habort hlat
  simp only [proxyRequest, hparts, hproxy, hbreaker, Breaker.call]
  rcases b.beforeRequest r.now with ⟨_ | generation, b'⟩
  · exact ⟨setBreaker_getBreaker _, rp, hproxy, hrp⟩
  · simp only [recoverAbort_gw, setBreaker_getBreaker, hab, hel, Bool.not_true, true_and]
    exact ⟨_, serve_getProxy _, hrp'⟩

/-- Requests for the service whose answers abort, handled in turn by `proxyRequest`: the breaker
is told of one failed call for each, from its arrival to its abort. -/
theorem proxyAll_aborts {τ : Int} (lat : Request → Int) (reqs : List Request) :
    ∀ (e : Exchange) (rp : Proxy.ReverseProxy) (b : Breaker),
      e.gw.proxyManager.getProxy name = some rp → RoundRobinProxy rp τ →
      e.gw.circuitManager.getBreaker name = some ⟨some b⟩ →
      (∀ r ∈ reqs, (serviceParts r.path).head? = some name) →
      (∀ r ∈ reqs, ∀ t, ∃ s sent, Proxy.outcome r t = .aborts s sent (lat r)) →
      (∀ r ∈ reqs, ¬(0 < τ ∧ τ < lat r)) →
      (reqs.foldl (fun e r => proxyRequest r e) e).gw.circuitManager.getBreaker name =
          some ⟨some (b.failAll (reqs.map fun r => (r.now, r.now + lat r)))⟩ ∧
        ∃ rp', (reqs.foldl (fun e r => proxyRequest r e) e).gw.proxyManager.getProxy name = some rp' ∧
          RoundRobinProxy rp' τ := by
  induction reqs with
  | nil => intro e rp b hproxy hrp hb _ _ _; exact ⟨hb, rp, hproxy, hrp⟩
  | cons r reqs ih =>
    intro e rp b hproxy hrp hb hparts habort hlat
    obtain ⟨rest, hr⟩ := List.head?_eq_some_iff.mp (hparts r (List.mem_cons_self _ _))
    obtain ⟨hb', rp', hproxy', hrp'⟩ := proxyRequest_aborts hr hproxy hrp hb
      (habort r (List.mem_cons_self _ _)) (hlat r (List.mem_cons_self _ _))
    exact ih _ rp' _ hproxy' hrp' hb' (fun r' h => hparts r' (List.mem_cons_of_mem _ h))
      (fun r' h => habort r' (List.mem_cons_of_mem _ h)) (fun r' h => hlat r' (List.mem_cons_of_mem _ h))

end Aborted

/-- A service with a round-robin proxy whose breaker, built with the settings of its configuration
`cfg`, lacks `ts.length` consecutive failures of `max(uint32(T), 1)` in its generation. When that
many requests for it get answers that abort, all within the generation, the breaker opens, and
`proxyRequest` answers each request of the service until the recovery timeout after the last abort
with `503` without calling the proxy. -/
theorem aborted_answers_open_breaker (e : Exchange) (name : String) (rp : Proxy.ReverseProxy)
    (τ : Int) (cfg : CircuitBreakerConfig) (b : Breaker) (reqs : List Request) (lat : Request → Int)
    (last req : Request)
    (hproxy : e.gw.proxyManager.getProxy name = some rp) (hrp : RoundRobinProxy rp τ)
    (hbreaker : e.gw.circuitManager.getBreaker name = some ⟨some b⟩)
    (hset : b.settings = Settings.ofConfig cfg)
    (hparts : ∀ r ∈ reqs ++ [req], (serviceParts r.path).head? = some name)
    (habort : ∀ r ∈ reqs, ∀ t, ∃ s sent, Proxy.outcome r t = .aborts s sent (lat r))
    (hlat : ∀ r ∈ reqs, ¬(0 < τ ∧ τ < lat r))
    (hwithin : ∀ r ∈ reqs, b.Within r.now ∧ b.Within (r.now + lat r))
    (hcount : b.counts.consecutiveFailures + reqs.length = max (u32 cfg.failureThreshold) 1)
    (hlast : reqs.getLast? = some last)
    (hnow : req.now ≤ last.now + lat last + (Settings.ofConfig cfg).timeout) :
    proxyRequest req (reqs.foldl (fun e r => proxyRequest r e) e) =
      (reqs.foldl (fun e r => proxyRequest r e) e).write 503
        (.error "Service temporarily unavailable" none) := by
  obtain ⟨hb, rp', hproxy', -⟩ := proxyAll_aborts lat reqs e rp b hproxy hrp hbreaker
    (fun r h => hparts r (List.mem_append_left _ h)) habort hlat
  have hthr : b.settings.threshold < 2 ^ 32 := hset ▸ u32_lt cfg.failureThreshold
  obtain ⟨hopen, hexpiry⟩ := Breaker.failAll_trips (reqs.map fun r => (r.now, r.now + lat r)) b hthr
    (by simpa using hwithin) (by simpa [hset] using hcount) (last.now, last.now + lat last)
    (by simp [List.getLast?_map, hlast])
  obtain ⟨rest, hr⟩ :=
    List.head?_eq_some_iff.mp (hparts req (List.mem_append_right _ (List.mem_singleton_self _)))
  rw [hset] at hexpiry
  exact proxyRequest_open hr hproxy' hb hopen hexpiry hnow

/-- The gateway `main` builds from `usersConfig`. -/
def usersGateway : Gateway :=
  match start plainExt (.decoded usersConfig) false 0 with
  | .ok g => g
  | .error _ => openGateway

/-- Two requests for `users`, at one and two seconds, whose answers break off at once. -/
def abortedRequests : List Request :=
  [usersRequest Time.second (.aborts 200 true 0), usersRequest (2 * Time.second) (.aborts 200 true 0)]

theorem aborted_answers_open_breaker_users :
    (Exchange.start usersGateway [] 404).gw.proxyManager.getProxy "users" =
        some ⟨.roundRobin ["http://users:8080"] 0, 0⟩ ∧
      RoundRobinProxy ⟨.roundRobin ["http://users:8080"] 0, 0⟩ 0 ∧
      (Exchange.start usersGateway [] 404).gw.circuitManager.getBreaker "users" =
        some ⟨some (newBreaker usersBreaker 0)⟩ ∧
      (newBreaker usersBreaker 0).settings = Settings.ofConfig usersBreaker ∧
      (∀ r ∈ abortedRequests ++ [usersRequest (3 * Time.second) (.responds 200 0)],
        (serviceParts r.path).head? = some "users") ∧
      (∀ r ∈ abortedRequests, ∀ t, ∃ s sent, Proxy.outcome r t = .aborts s sent 0) ∧
      (∀ r ∈ abortedRequests, ¬((0 : Int) < 0 ∧ (0 : Int) < 0)) ∧
      (∀ r ∈ abortedRequests,
        (newBreaker usersBreaker 0).Within r.now ∧ (newBreaker usersBreaker 0).Within (r.now + 0)) ∧
      (newBreaker usersBreaker 0).counts.consecutiveFailures + abortedRequests.length =
        max (u32 usersBreaker.failureThreshold) 1 ∧
      abortedRequests.getLast? = some (usersRequest (2 * Time.second) (.aborts 200 true 0)) ∧
      (usersRequest (3 * Time.second) (.responds 200 0)).now ≤
        (usersRequest (2 * Time.second) (.aborts 200 true 0)).now + 0 +
          (Settings.ofConfig usersBreaker).timeout ∧
      proxyRequest (usersRequest (3 * Time.second) (.responds 200 0))
          (abortedRequests.foldl (fun e r => proxyRequest r e) (Exchange.start usersGateway [] 404)) =
        (abortedRequests.foldl (fun e r => proxyRequest r e) (Exchange.start usersGateway [] 404)).write
          503 (.error "Service temporarily unavailable" none) :=
  have hparts : ∀ r ∈ abortedRequests ++ [usersRequest (3 * Time.second) (.responds 200 0)],
      (serviceParts r.path).head? = some "users" := by decide
  have habort : ∀ r ∈ abortedRequests, ∀ t, ∃ s sent, Proxy.outcome r t = .aborts s sent 0 := by
    simp only [abortedRequests, List.mem_cons, List.mem_singleton, List.not_mem_nil, or_false]
    rintro r (rfl | rfl) t <;> exact ⟨200, true, rfl⟩
  have hwithin : ∀ r ∈ abortedRequests,
      (newBreaker usersBreaker 0).Within r.now ∧ (newBreaker usersBreaker 0).Within (r.now + 0) := by
    simp [abortedRequests, usersRequest, clientRequest, Breaker.Within, newBreaker,
      Breaker.toNewGeneration, Settings.ofConfig, usersBreaker, Time.second]
  have hlat : ∀ r ∈ abortedRequests, ¬((0 : Int) < 0 ∧ (0 : Int) < 0) := fun _ _ => by decide
  have hnow : (usersRequest (3 * Time.second) (.responds 200 0)).now ≤
      (usersRequest (2 * Time.second) (.aborts 200 true 0)).now + 0 +
        (Settings.ofConfig usersBreaker).timeout := by decide
  ⟨rfl, ⟨rfl, _, _, rfl, by decide⟩, rfl, rfl, hparts, habort, hlat, hwithin, rfl, rfl, hnow,
    aborted_answers_open_breaker _ "users" _ 0 usersBreaker _ abortedRequests (fun _ => 0) _ _ rfl
      ⟨rfl, _, _, rfl, by decide⟩ rfl rfl hparts habort hlat hwithin rfl rfl hnow⟩

/-- Two requests for `users` whose backend fails, one second apart, and a third one second
later: the breaker, told of successes only, lets the third through to the proxy. And a breaker
told of two failures at nine and eleven seconds, across the end of its first generation, does
not open: the third call passes. -/
theorem failures_do_not_open_breaker :
    (∃ g, start plainExt (.decoded usersConfig) false 0 = .ok g ∧
      (run plainExt g [.request (usersRequest Time.second (.fails false 0)),
        .request (usersRequest (2 * Time.second) (.responds 500 0)),
        .request (usersRequest (3 * Time.second) (.responds 200 0))]).2.map (·.served) =
        [[("users", some "http://users:8080")], [("users", some "http://users:8080")],
          [("users", some "http://users:8080")]]) ∧
    (((newBreaker usersBreaker 0).failAll [(9 * Time.second, 9 * Time.second),
      (11 * Time.second, 11 * Time.second)]).call (12 * Time.second) (12 * Time.second) true).1 =
      none :=
  ⟨⟨_, rfl, rfl⟩, rfl⟩

end Gateway
end ApiGateway
