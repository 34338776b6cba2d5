import Mathlib.Algebra.Group.Int
import Mathlib.Algebra.Group.Nat.Basic
import Mathlib.Logic.Function.Basic
import ApiGateway.Config

/-!
# ApiGateway.Circuit

`circuit.CircuitBreaker` wraps a breaker of `github.com/sony/gobreaker`, built by
`NewCircuitBreaker` from a service's `CircuitBreakerConfig`; `circuit.Manager` keeps one for
each service whose breaker is enabled.

The gobreaker breaker is modelled as its code computes it: a state, a generation, the counts of
the generation, and the expiry of the generation (`none` for the zero time). While closed, a
generation lasts `Interval`; an open breaker turns half-open once `Timeout` has passed.
`NewCircuitBreaker` sets both to the configured recovery timeout, lets `ReadyToTrip` compare the
consecutive failures with `uint32(FailureThreshold)`, and sets `MaxRequests` to
`uint32(HalfOpenRequests)`. Counts are `uint32`, so they wrap at `2^32`.

`Execute` reads the clock before and after the function it protects; a call here is given both
instants and the outcome of the function.

* `failAll_trips`: `max(uint32(T), 1)` failures reported in a row within one generation open a closed
  breaker.
-/

namespace ApiGateway
namespace Circuit

/-- `uint32(n)` of a Go `int`. -/
def u32 (n : Int) : Nat := (n % 2 ^ 32).toNat

/-- Adding one to a `uint32`. -/
def succ32 (n : Nat) : Nat := (n + 1) % 2 ^ 32

/-- `gobreaker.State`. -/
inductive State where
  | closed
  | halfOpen
  | open
  deriving DecidableEq, Repr

/-- `gobreaker.Counts`. -/
structure Counts where
  requests : Nat
  totalSuccesses : Nat
  totalFailures : Nat
  consecutiveSuccesses : Nat
  consecutiveFailures : Nat
  deriving DecidableEq, Repr

namespace Counts

/-- `clear()`. -/
def clear : Counts := ⟨0, 0, 0, 0, 0⟩

/-- `onRequest()`. -/
def onRequest (c : Counts) : Counts := { c with requests := succ32 c.requests }

/-- `onSuccess()`. -/
def onSuccess (c : Counts) : Counts :=
  { c with totalSuccesses := succ32 c.totalSuccesses,
           consecutiveSuccesses := succ32 c.consecutiveSuccesses, consecutiveFailures := 0 }

/-- `onFailure()`. -/
def onFailure (c : Counts) : Counts :=
  { c with totalFailures := succ32 c.totalFailures,
           consecutiveFailures := succ32 c.consecutiveFailures, consecutiveSuccesses := 0 }

end Counts

/-- The settings of a `gobreaker.CircuitBreaker`, with `threshold` the value `ReadyToTrip`
compares the consecutive failures with. -/
structure Settings where
  maxRequests : Nat
  interval : Int
  timeout : Int
  threshold : Nat
  deriving DecidableEq, Repr

/-- The settings `NewCircuitBreaker` gives gobreaker for `cfg`, as gobreaker stores them: a zero
`MaxRequests` is one, a non-positive `Interval` is zero, a non-positive `Timeout` is 60 s. -/
def Settings.ofConfig (cfg : CircuitBreakerConfig) : Settings where
  maxRequests := if u32 cfg.halfOpenRequests = 0 then 1 else u32 cfg.halfOpenRequests
  interval := if cfg.recoveryTimeout ≤ 0 then 0 else cfg.recoveryTimeout
  timeout := if cfg.recoveryTimeout ≤ 0 then 60 * 1000000000 else cfg.recoveryTimeout
  threshold := u32 cfg.failureThreshold

/-- A `gobreaker.CircuitBreaker`: its settings and its state. -/
structure Breaker where
  settings : Settings
  state : State
  generation : Nat
  counts : Counts
  expiry : Option Int
  deriving DecidableEq, Repr

namespace Breaker

/-- `ReadyToTrip` of `NewCircuitBreaker`. -/
def readyToTrip (b : Breaker) (counts : Counts) : Bool :=
  b.settings.threshold ≤ counts.consecutiveFailures

/-- `toNewGeneration(now)`. -/
def toNewGeneration (b : Breaker) (now : Int) : Breaker :=
  { b with
    generation := b.generation + 1
    counts := Counts.clear
    expiry := match b.state with
      | .closed => if b.settings.interval = 0 then none else some (now + b.settings.interval)
      | .open => some (now + b.settings.timeout)
      | .halfOpen => none }

/-- `setState(state, now)`. -/
def setState (b : Breaker) (state : State) (now : Int) : Breaker :=
  if b.state = state then b else { b with state := state }.toNewGeneration now

/-- `currentState(now)`: the breaker once a closed generation or an open period has expired. -/
def currentState (b : Breaker) (now : Int) : Breaker :=
  match b.state, b.expiry with
  | .closed, some e => if e < now then b.toNewGeneration now else b
  | .open, some e => if e < now then b.setState .halfOpen now else b
  | .open, none => b.setState .halfOpen now
  | _, _ => b

/-- `beforeRequest()` at `now`: the generation of the call, or the error refusing it. -/
def beforeRequest (b : Breaker) (now : Int) : Except String Nat × Breaker :=
  let b := b.currentState now
  match b.state with
  | .open => (.error "circuit breaker is open", b)
  | .halfOpen =>
    if b.settings.maxRequests ≤ b.counts.requests then (.error "too many requests", b)
    else (.ok b.generation, { b with counts := b.counts.onRequest })
  | .closed => (.ok b.generation, { b with counts := b.counts.onRequest })

/-- `onSuccess(state, now)`. -/
def onSuccess (b : Breaker) (now : Int) : Breaker :=
  match b.state with
  | .closed => { b with counts := b.counts.onSuccess }
  | .halfOpen =>
    let b := { b with counts := b.counts.onSuccess }
    if b.settings.maxRequests ≤ b.counts.consecutiveSuccesses then b.setState .closed now else b
  | .open => b

/-- `onFailure(state, now)`. -/
def onFailure (b : Breaker) (now : Int) : Breaker :=
  match b.state with
  | .closed =>
    let b := { b with counts := b.counts.onFailure }
    if b.readyToTrip b.counts then b.setState .open now else b
  | .halfOpen => b.setState .open now
  | .open => b

/-- `afterRequest(before, success)` at `now`. -/
def afterRequest (b : Breaker) (before : Nat) (success : Bool) (now : Int) : Breaker :=
  let b := b.currentState now
  if b.generation ≠ before then b else if success then b.onSuccess now else b.onFailure now

/-- `Execute` of a function whose outcome is `success`, called at `start` and returning at
`done`: the error of a refused call, and the breaker after it. -/
def call (b : Breaker) (start done : Int) (success : Bool) : Option String × Breaker :=
  match b.beforeRequest start with
  | (.error e, b) => (some e, b)
  | (.ok generation, b) => (none, b.afterRequest generation success done)

end Breaker

/-- `gobreaker.NewCircuitBreaker` with the settings `NewCircuitBreaker` gives it, at `now`. -/
def newBreaker (cfg : CircuitBreakerConfig) (now : Int) : Breaker :=
  Breaker.toNewGeneration ⟨Settings.ofConfig cfg, .closed, 0, Counts.clear, none⟩ now

/-- `circuit.CircuitBreaker`: its gobreaker breaker, none when the configuration disables it. -/
structure CircuitBreaker where
  breaker : Option Breaker
  deriving DecidableEq, Repr

/-- `NewCircuitBreaker(name, cfg, logger)` at `now`. -/
def newCircuitBreaker (cfg : CircuitBreakerConfig) (now : Int) : CircuitBreaker :=
  ⟨if cfg.enabled then some (newBreaker cfg now) else none⟩

/-- `circuit.Manager`: the breakers by service name. -/
structure Manager where
  breakers : String → Option CircuitBreaker

namespace Manager

/-- `NewManager(logger)`. -/
def new : Manager := ⟨fun _ => none⟩

/-- `GetBreaker(name)`. -/
def getBreaker (m : Manager) (name : String) : Option CircuitBreaker := m.breakers name

/-- `CreateBreaker(name, cfg)` at `now`. -/
def createBreaker (m : Manager) (name : String) (cfg : CircuitBreakerConfig) (now : Int) : Manager :=
  ⟨Function.update m.breakers name (some (newCircuitBreaker cfg now))⟩

end Manager

namespace Breaker

section Open

variable {b : Breaker} {e now : Int}

theorem currentState_open (hs : b.state = .open) (he : b.expiry = some e) (hnow : now ≤ e) :
    b.currentState now = b := by
  simp only [currentState, hs, he]
  exact if_neg (by omega)

end Open

section Trip

/-- The breaker is closed and `now` falls inside its generation. -/
def Within (b : Breaker) (now : Int) : Prop :=
  b.state = .closed ∧ ∀ e, b.expiry = some e → now ≤ e

theorem currentState_within {b : Breaker} {now : Int} (h : b.Within now) :
    b.currentState now = b := by
  obtain ⟨hs, he⟩ := h
  unfold currentState
  cases hx : b.expiry with
  | none => simp only [hs]
  | some e => simp only [hs, if_neg (Int.not_lt.mpr (he e hx))]

/-- A failed call to a closed breaker inside its generation counts one request and one
failure, and trips the breaker when `ReadyToTrip` says so. -/
theorem call_failure_within {b : Breaker} {start done : Int} (hs : b.Within start)
    (hd : b.Within done) :
    (b.call start done false).2 =
      let b' := { b with counts := b.counts.onRequest.onFailure }
      if b.settings.threshold ≤ b'.counts.consecutiveFailures then b'.setState .open done else b' := by
  have hw' : ({ b with counts := b.counts.onRequest } : Breaker).Within done := hd
  have hbefore : b.beforeRequest start = (.ok b.generation, { b with counts := b.counts.onRequest }) := by
    simp only [beforeRequest, currentState_within hs, hs.1]
  have hafter : ({ b with counts := b.counts.onRequest } : Breaker).afterRequest b.generation false
      done = ({ b with counts := b.counts.onRequest } : Breaker).onFailure done := by
    simp [afterRequest, currentState_within hw']
  simp only [call, hbefore]
  rw [hafter]
  simp only [onFailure, hs.1, readyToTrip, decide_eq_true_eq]

/-- Failed calls at the given pairs of instants. -/
def failAll (b : Breaker) (ts : List (Int × Int)) : Breaker :=
  ts.foldl (fun b t => (b.call t.1 t.2 false).2) b

/-- Failed calls inside the generation of a closed breaker that bring its consecutive failures
to `max(threshold, 1)` open it when the last returns, for `Timeout`. -/
theorem failAll_trips (ts : List (Int × Int)) :
    ∀ b : Breaker, b.settings.threshold < 2 ^ 32 → (∀ t ∈ ts, b.Within t.1 ∧ b.Within t.2) →
      b.counts.consecutiveFailures + ts.length = max b.settings.threshold 1 →
      ∀ last ∈ ts.getLast?, (b.failAll ts).state = .open ∧
        (b.failAll ts).expiry = some (last.2 + b.settings.timeout) := by
  induction ts with
  | nil => intro _ _ _ _ _ h; cases h
  | cons t rest ih =>
    intro b hthr hw hlen last hlast
    obtain ⟨hs, hd⟩ := hw t (List.mem_cons_self _ _)
    simp only [List.length_cons] at hlen
    have hsucc : succ32 b.counts.consecutiveFailures = b.counts.consecutiveFailures + 1 := by
      unfold succ32
      omega
    rw [failAll, List.foldl_cons, call_failure_within hs hd]
    simp only [Counts.onFailure, Counts.onRequest, hsucc]
    split
    · have hrest : rest = [] := List.eq_nil_of_length_eq_zero (by omega)
      subst hrest
      cases hlast
      simp [setState, hs.1, toNewGeneration]
    · have hrest : rest ≠ [] := by
        rintro rfl
        simp only [List.length_nil] at hlen
        omega
      obtain ⟨u, us, rfl⟩ := List.exists_cons_of_ne_nil hrest
      rw [List.getLast?_cons_cons] at hlast
      refine ih _ ?_ (fun v hv => ?_) ?_ last hlast
      · exact hthr
      · obtain ⟨h1, h2⟩ := hw v (List.mem_cons_of_mem _ hv)
        exact ⟨⟨hs.1, h1.2⟩, ⟨hs.1, h2.2⟩⟩
      · show b.counts.consecutiveFailures + 1 + (u :: us).length = max b.settings.threshold 1
        omega

end Trip


end Breaker
end Circuit
end ApiGateway
