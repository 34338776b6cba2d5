import ApiGateway.Proxy
import ApiGateway.LoadBalancer.LeastConnections

/-!
# ApiGateway.Proxy.Connections

Requests through `ReverseProxy.ServeHTTP` overlap: each asks the load balancer for a target when
it starts, and is answered when its backend replies or fails. `ServeHTTP` is the two halves
`begin` and `complete` (`serveHTTP_eq`). A `Flight` holds the proxy, the targets of the requests
in flight, and the targets of those already answered; any interleaving of starts and completions
is a list of `Event`s.

`LeastConnections.NextTarget` adds a connection to the target it returns, and nothing on the
path of `ServeHTTP` calls `ReleaseConnection`: a completion, answered, aborted or through
`handleProxyError`, leaves the counters as they are. A URL's counter therefore counts every
request ever forwarded to it, the answered ones included, in `int64`.

* `connections_count_completed`: along any interleaving from `NewReverseProxy` with
  `least_connections`, the connections of a URL are, modulo `2^64`, the requests forwarded to it
  that are in flight plus those already answered.
* `completed_request_still_counted`: one request to the single target `a`, started and answered,
  leaves the counter of `a` at `1` with no request in flight.
-/

namespace ApiGateway
namespace Proxy

open LoadBalancer

/-- The first half of `ServeHTTP`: `NextTarget`. -/
def ReverseProxy.begin (rp : ReverseProxy) (draw : Nat) : Option String × ReverseProxy :=
  match rp.loadBalancer.nextTarget draw with
  | (t, lb) => (t, { rp with loadBalancer := lb })

/-- The second half of `ServeHTTP`, for a request sent to `target` whose backend answers with
`outcome`: through the timeout handler and `handleProxyError`, the response, the proxy after it,
the time it took and whether the answer aborted. -/
def ReverseProxy.complete (rp : ReverseProxy) (target : String) (outcome : Upstream) :
    Response × ReverseProxy × Int × Bool :=
  if 0 < rp.timeout ∧ rp.timeout < outcome.latency then
    (⟨503, [], .text "Gateway Timeout"⟩, { rp with loadBalancer := rp.loadBalancer.markUnhealthy target },
      rp.timeout, false)
  else
    match outcome with
    | .responds status latency => (⟨status, [], .upstream target⟩, rp, latency, false)
    | .fails timeout latency =>
      (if timeout then httpError "Gateway Timeout" 504 else httpError "Bad Gateway" 502,
        { rp with loadBalancer := rp.loadBalancer.markUnhealthy target }, latency, false)
    | .aborts status sent latency =>
      (if 0 < rp.timeout then ⟨200, [], .empty⟩
        else ⟨status, [], if sent then .cut target else .empty⟩, rp, latency, true)

/-- `ServeHTTP` is `begin`, then `complete` with the backend's answer. -/
theorem serveHTTP_eq (rp : ReverseProxy) (req : Request) :
    rp.serveHTTP req =
      match rp.begin req.draw with
      | (none, rp') => ⟨httpError "Service Unavailable" 503, none, rp', 0, false⟩
      | (some target, rp') =>
        match rp'.complete target (outcome req target) with
        | (response, rp'', elapsed, aborted) => ⟨response, some target, rp'', elapsed, aborted⟩ := by
  rcases h : rp.loadBalancer.nextTarget req.draw with ⟨_ | target, lb⟩
  · simp only [ReverseProxy.serveHTTP, ReverseProxy.begin, h]
  · simp only [ReverseProxy.serveHTTP, ReverseProxy.begin, ReverseProxy.complete, h]
    split
    · rfl
    · cases outcome req target <;> rfl

/-- The connections `complete` leaves: it marks a target at most. -/
@[simp] theorem connectionsOf_complete (rp : ReverseProxy) (target : String) (outcome : Upstream)
    (u : String) :
    connectionsOf u (rp.complete target outcome).2.1.loadBalancer = connectionsOf u rp.loadBalancer := by
  simp only [ReverseProxy.complete]
  split
  · exact connectionsOf_markUnhealthy u target _
  · cases outcome
    · rfl
    · exact connectionsOf_markUnhealthy u target _
    · rfl

/-- The proxy, the targets of the requests in flight in the order they started, and the targets of
the requests already answered. -/
structure Flight where
  proxy : ReverseProxy
  inFlight : List String
  completed : List String

/-- A request starting, with its draw, or the request in flight at `index` answered with the
backend's `outcome`. -/
inductive Event where
  | start (draw : Nat)
  | finish (index : Nat) (outcome : Upstream)

namespace Flight

/-- The flight after an event. A request the balancer has no target for is answered at once. -/
def step (f : Flight) : Event → Flight
  | .start d =>
    match f.proxy.begin d with
    | (none, rp) => ⟨rp, f.inFlight, f.completed⟩
    | (some t, rp) => ⟨rp, f.inFlight ++ [t], f.completed⟩
  | .finish k o =>
    match f.inFlight[k]? with
    | none => f
    | some t => ⟨(f.proxy.complete t o).2.1, f.inFlight.eraseIdx k, f.completed ++ [t]⟩

/-- The flight after each event of `events` in turn. -/
def run (f : Flight) (events : List Event) : Flight := events.foldl step f

/-- A least-connections proxy whose counter of each URL counts, modulo `2^64`, the requests
forwarded to it, in flight or answered. -/
def Counted (f : Flight) : Prop :=
  (∃ ts, f.proxy.loadBalancer = .leastConnections ts) ∧
    ∀ u, connectionsOf u f.proxy.loadBalancer % 2 ^ 64 =
      ((f.inFlight.count u : Int) + f.completed.count u) % 2 ^ 64

theorem count_eraseIdx {l : List String} {k : Nat} {t : String} (h : l[k]? = some t) (u : String) :
    (l.eraseIdx k).count u + (if t = u then 1 else 0) = l.count u := by
  induction l generalizing k with
  | nil => simp at h
  | cons a l ih =>
    cases k with
    | zero =>
      simp only [List.getElem?_cons_zero, Option.some_inj] at h
      subst h
      simp [List.count_cons]
    | succ k =>
      have := ih (by simpa using h)
      simp only [List.eraseIdx_cons_succ, List.count_cons, beq_iff_eq]
      omega

theorem complete_leastConnections {rp : ReverseProxy} {ts : List ConnectionTarget}
    (h : rp.loadBalancer = .leastConnections ts) (target : String) (outcome : Upstream) :
    ∃ ts', (rp.complete target outcome).2.1.loadBalancer = .leastConnections ts' := by
  simp only [ReverseProxy.complete, h]
  split
  · exact ⟨_, rfl⟩
  · cases outcome
    · exact ⟨ts, h⟩
    · exact ⟨_, rfl⟩
    · exact ⟨ts, h⟩

theorem count_singleton_add (l : List String) (t u : String) :
    ((l ++ [t]).count u : Int) = l.count u + if t = u then 1 else 0 := by
  by_cases htu : t = u <;> simp [htu, List.count_singleton]

/-- A start or a completion keeps every counter equal to the requests forwarded to its URL. -/
theorem step_counted {f : Flight} (h : f.Counted) (e : Event) : (f.step e).Counted := by
  obtain ⟨⟨ts, hts⟩, hc⟩ := h
  cases e with
  | start d =>
    have hn := connectionsOf_nextTarget d ts
    obtain ⟨ts', hts'⟩ := call_leastConnections ts (.nextTarget d)
    rcases hsel : nextTarget d (.leastConnections ts) with ⟨_ | t, lb⟩ <;>
      simp only [call, hsel] at hn hts' <;>
      simp only [step, ReverseProxy.begin, hts, hsel] <;> refine ⟨⟨ts', hts'⟩, fun u => ?_⟩
    · rw [hn, ← hts]
      simpa using hc u
    · rw [hn, ← hts]
      dsimp only
      rw [count_singleton_add]
      have := hc u
      by_cases htu : t = u <;> simp only [htu, Option.some_inj, ↓reduceIte] <;> omega
  | finish k o =>
    simp only [step]
    cases ht : f.inFlight[k]? with
    | none => exact ⟨⟨ts, hts⟩, hc⟩
    | some t =>
      refine ⟨complete_leastConnections hts t o, fun u => ?_⟩
      have he := count_eraseIdx ht u
      dsimp only
      rw [connectionsOf_complete, hc u, count_singleton_add]
      by_cases htu : t = u <;> simp only [htu, ↓reduceIte] at he ⊢ <;> omega

/-- Every run from a counted flight is counted. -/
theorem run_counted {f : Flight} (h : f.Counted) (events : List Event) : (f.run events).Counted := by
  induction events generalizing f with
  | nil => exact h
  | cons e events ih => exact ih (step_counted h e)

end Flight

/-- Along any interleaving of starts and completions through a proxy `NewReverseProxy` builds with
`least_connections`, the connections of each URL are, modulo `2^64`, the requests forwarded to it
that are in flight plus those already answered. -/
theorem connections_count_completed (targets : List String) (timeout : Int) (events : List Event)
    (u : String) :
    connectionsOf u (Flight.run ⟨⟨newLeastConnections targets, timeout⟩, [], []⟩ events).proxy.loadBalancer % 2 ^ 64 =
      (((Flight.run ⟨⟨newLeastConnections targets, timeout⟩, [], []⟩ events).inFlight.count u : Int) +
        (Flight.run ⟨⟨newLeastConnections targets, timeout⟩, [], []⟩ events).completed.count u) % 2 ^ 64 := by
  refine (Flight.run_counted ⟨⟨_, rfl⟩, fun u => ?_⟩ events).2 u
  have hzero : connectionsOf u (newLeastConnections targets) = 0 := by
    simp only [newLeastConnections, connectionsOf, List.map_map]
    induction targets with
    | nil => rfl
    | cons t targets ih => simp only [List.map_cons, Function.comp, intSum_cons, ih]; split <;> rfl
  simp [hzero]

theorem connections_count_completed_answered :
    connectionsOf "a"
        (Flight.run ⟨⟨newLeastConnections ["a", "b"], 0⟩, [], []⟩ [.start 0, .finish 0 (.fails true 5)]).proxy.loadBalancer % 2 ^ 64 =
      (((Flight.run ⟨⟨newLeastConnections ["a", "b"], 0⟩, [], []⟩ [.start 0, .finish 0 (.fails true 5)]).inFlight.count "a" : Int) +
        (Flight.run ⟨⟨newLeastConnections ["a", "b"], 0⟩, [], []⟩ [.start 0, .finish 0 (.fails true 5)]).completed.count "a") % 2 ^ 64 :=
  connections_count_completed ["a", "b"] 0 _ "a"

/-- One request to the single target `a` of a least-connections proxy, started and answered
`200`: no request is in flight, and the counter of `a` is `1`. -/
theorem completed_request_still_counted :
    (Flight.run ⟨⟨newLeastConnections ["a"], 0⟩, [], []⟩ [.start 0, .finish 0 (.responds 200 5)]).inFlight = [] ∧
      connectionsOf "a"
        (Flight.run ⟨⟨newLeastConnections ["a"], 0⟩, [], []⟩ [.start 0, .finish 0 (.responds 200 5)]).proxy.loadBalancer = 1 := by
  decide

end Proxy
end ApiGateway
