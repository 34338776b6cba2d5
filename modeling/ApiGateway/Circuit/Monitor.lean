import Mathlib.Data.List.Basic
import ApiGateway.Circuit.Recovery

/-!
# ApiGateway.Circuit.Monitor

The reads of breaker state that monitoring makes. gobreaker's `State()` is not a pure read: it
runs `currentState` at the current instant, so a closed breaker whose generation has expired
starts a new one, and an open breaker whose timeout has passed turns half-open. `Counts()`
returns the counts as they stand. The public `/health` handler calls `IsOpen()`, that is
`State()`, on the breaker of every service (`getServiceHealth`), and the admin statistics call
`GetAllStates()`, which reads `Counts()` and then `State()`.

* `getServiceHealth_breakers`: a health check moves the breaker of every listed service by
  `currentState` at its instant, and leaves every other breaker as it was.
* `probe_call`: a probe never changes whether the next call is admitted.
* `probe_keeps_closed`: a probe can still change what later calls do. With a failure threshold of
  two, two failed calls that open the breaker leave it closed when a probe came just before them:
  the probe started the generation, so the second failure lands in the next one.
* `getAllStates_stale`: for a closed breaker whose generation has expired, `GetAllStates` reports
  the counts of the generation that is over, and the breaker is left with cleared counts.
-/

namespace ApiGateway
namespace Circuit

/-- `State.String()`. -/
def State.toString : State → String
  | .closed => "closed"
  | .halfOpen => "half-open"
  | .open => "open"

namespace CircuitBreaker

/-- `State()` at `now`: gobreaker's `State()`, which first moves the breaker by `currentState`;
closed for a disabled breaker. -/
def state (cb : CircuitBreaker) (now : Int) : State × CircuitBreaker :=
  match cb.breaker with
  | none => (.closed, cb)
  | some b => ((b.currentState now).state, ⟨some (b.currentState now)⟩)

/-- `Counts()`: the counts as they stand; zero for a disabled breaker. -/
def counts (cb : CircuitBreaker) : Counts :=
  match cb.breaker with
  | none => Counts.clear
  | some b => b.counts

/-- `IsOpen()` at `now`. -/
def isOpen (cb : CircuitBreaker) (now : Int) : Bool × CircuitBreaker :=
  let r := cb.state now
  (r.1 = .open, r.2)

theorem isOpen_snd (cb : CircuitBreaker) (now : Int) : (cb.isOpen now).2 = (cb.state now).2 := rfl

/-- The breaker `State()` leaves: moved by `currentState`. -/
theorem state_snd (cb : CircuitBreaker) (now : Int) :
    (cb.state now).2 = ⟨cb.breaker.map (·.currentState now)⟩ := by
  rcases cb with ⟨_ | b⟩ <;> rfl

/-- `IsOpen()` holds exactly of an enabled breaker that is open and whose timeout has not
passed. -/
theorem isOpen_iff (cb : CircuitBreaker) (now : Int) :
    (cb.isOpen now).1 = true ↔
      ∃ b e, cb.breaker = some b ∧ b.state = .open ∧ b.expiry = some e ∧ now ≤ e := by
  unfold isOpen state
  rcases cb with ⟨_ | b⟩
  · simp
  · simp only [decide_eq_true_eq, Option.some.injEq, exists_and_left, exists_eq_left']
    unfold Breaker.currentState
    rcases hs : b.state with _ | _ | _ <;> cases he : b.expiry <;>
      simp [Breaker.setState, Breaker.toNewGeneration, hs, he]
    all_goals
      rename_i e
      by_cases h : e < now <;> simp [h, hs, Breaker.toNewGeneration] <;> omega

end CircuitBreaker

/-- `BreakerInfo`: the name, the state text and the five counts. -/
structure BreakerInfo where
  name : String
  state : String
  counts : Counts
  deriving DecidableEq, Repr

namespace Manager

/-- `GetAllStates()` at `now`, over the names of the manager's map in the order the loop visits
them: each breaker's counts, read before `State()` moves it, and its state. -/
def getAllStates (now : Int) : List String → Manager → List BreakerInfo × Manager
  | [], m => ([], m)
  | name :: names, m =>
    match m.breakers name with
    | none => getAllStates now names m
    | some cb =>
      let r := cb.state now
      let rest := getAllStates now names ⟨Function.update m.breakers name (some r.2)⟩
      (⟨name, r.1.toString, cb.counts⟩ :: rest.1, rest.2)

/-- The manager once `State()` has run at `now` on the breaker of each of `names`. -/
def probed (m : Manager) (now : Int) (names : List String) : Manager :=
  ⟨fun name => if name ∈ names then (m.breakers name).map fun cb => (cb.state now).2
    else m.breakers name⟩

theorem probed_nil (m : Manager) (now : Int) : m.probed now [] = m := by
  simp [probed]

theorem probed_cons_none {m : Manager} {name : String} (h : m.breakers name = none) (now : Int)
    (names : List String) : m.probed now names = m.probed now (name :: names) := by
  simp only [probed, Manager.mk.injEq]
  funext n
  by_cases hn : n = name
  · subst hn
    simp [h]
  · simp [hn]

/-- Probing one more name: `State()` on its breaker, then the others. -/
theorem probed_cons_some {m : Manager} {name : String} {cb : CircuitBreaker}
    (h : m.breakers name = some cb) {names : List String} (hn : name ∉ names) (now : Int) :
    (⟨Function.update m.breakers name (some (cb.state now).2)⟩ : Manager).probed now names =
      m.probed now (name :: names) := by
  simp only [probed, Manager.mk.injEq]
  funext n
  by_cases hne : n = name
  · subst hne
    simp [hn, h]
  · simp [hne, Function.update_noteq hne]

theorem getAllStates_snd (now : Int) {names : List String} (hnd : names.Nodup) (m : Manager) :
    (getAllStates now names m).2 = m.probed now names := by
  induction names generalizing m with
  | nil => exact (probed_nil m now).symm
  | cons name names ih =>
    rw [List.nodup_cons] at hnd
    unfold getAllStates
    cases h : m.breakers name with
    | none => rw [ih hnd.2, probed_cons_none h]
    | some cb => rw [ih hnd.2, probed_cons_some h hnd.1]

/-- The report of `GetAllStates`: each name with a breaker, its state after `State()` and its
counts from before. -/
theorem getAllStates_fst (now : Int) {names : List String} (hnd : names.Nodup) (m : Manager) :
    (getAllStates now names m).1 = names.filterMap fun n =>
      (m.breakers n).map fun cb => ⟨n, (cb.state now).1.toString, cb.counts⟩ := by
  induction names generalizing m with
  | nil => rfl
  | cons name names ih =>
    rw [List.nodup_cons] at hnd
    unfold getAllStates
    cases h : m.breakers name with
    | none => simp only [ih hnd.2, List.filterMap_cons, h, Option.map_none']
    | some cb =>
      simp only [ih hnd.2, List.filterMap_cons, h, Option.map_some']
      congr 1
      refine List.filterMap_congr fun n hn => ?_
      rw [Function.update_noteq (fun (he : n = name) => hnd.1 (he ▸ hn))]

/-- For a closed breaker whose generation has expired, `GetAllStates` reports the counts of the
generation that is over, while it leaves the breaker in the next generation with cleared
counts. -/
theorem getAllStates_stale {m : Manager} {names : List String} (hnd : names.Nodup) {name : String}
    (hn : name ∈ names) {b : Breaker} (hb : m.breakers name = some ⟨some b⟩)
    (hs : b.state = .closed) {e now : Int} (he : b.expiry = some e) (hnow : e < now) :
    ⟨name, "closed", b.counts⟩ ∈ (m.getAllStates now names).1 ∧
      ∃ b', (m.getAllStates now names).2.breakers name = some ⟨some b'⟩ ∧
        b'.generation = b.generation + 1 ∧ b'.counts = Counts.clear := by
  have hcur : b.currentState now = b.toNewGeneration now := by
    simp only [Breaker.currentState, hs, he, if_pos hnow]
  refine ⟨?_, b.toNewGeneration now, ?_, rfl, rfl⟩
  · rw [getAllStates_fst now hnd]
    refine List.mem_filterMap.mpr ⟨name, hn, ?_⟩
    simp only [hb, Option.map_some', CircuitBreaker.state, CircuitBreaker.counts, hcur,
      Breaker.toNewGeneration, hs]
    rfl
  · simp only [getAllStates_snd now hnd, probed, if_pos hn, hb, Option.map_some',
      CircuitBreaker.state_snd, hcur]

theorem getAllStates_stale_users :
    ["users"].Nodup ∧ "users" ∈ ["users"] ∧
      (Manager.new.createBreaker "users" ⟨true, 2, 10, 1⟩ 0).breakers "users" =
        some ⟨some (newBreaker ⟨true, 2, 10, 1⟩ 0)⟩ ∧
      (newBreaker ⟨true, 2, 10, 1⟩ 0).state = .closed ∧
      (newBreaker ⟨true, 2, 10, 1⟩ 0).expiry = some 10 ∧ (10 : Int) < 11 ∧
      ⟨"users", "closed", (newBreaker ⟨true, 2, 10, 1⟩ 0).counts⟩ ∈
        ((Manager.new.createBreaker "users" ⟨true, 2, 10, 1⟩ 0).getAllStates 11 ["users"]).1 ∧
      ∃ b', ((Manager.new.createBreaker "users" ⟨true, 2, 10, 1⟩ 0).getAllStates 11
          ["users"]).2.breakers "users" = some ⟨some b'⟩ ∧
        b'.generation = (newBreaker ⟨true, 2, 10, 1⟩ 0).generation + 1 ∧ b'.counts = Counts.clear :=
  ⟨by decide, List.mem_singleton_self _, rfl, rfl, by decide, by decide,
    getAllStates_stale (e := 10) (by decide) (List.mem_singleton_self _) rfl rfl (by decide)
      (by decide)⟩

end Manager

namespace Breaker

/-- The answer of a call depends only on the breaker as `currentState` leaves it at the call's
start: its state and, half-open, how many calls it admitted. -/
theorem call_fst (b : Breaker) (start done : Int) (success : Bool) :
    (b.call start done success).1 =
      match (b.currentState start).state with
      | .open => some "circuit breaker is open"
      | .halfOpen =>
        if (b.currentState start).settings.maxRequests ≤ (b.currentState start).counts.requests then
          some "too many requests"
        else none
      | .closed => none := by
  simp only [call, beforeRequest]
  cases (b.currentState start).state <;> simp only
  split_ifs <;> rfl

theorem currentState_closed {b : Breaker} (hs : b.state = .closed) (now : Int) :
    (b.currentState now).state = .closed := by
  unfold currentState
  cases he : b.expiry with
  | none => simp only [hs]
  | some e =>
    simp only [hs]
    split <;> simp only [toNewGeneration, hs]

/-- A probe at `t₁` and the next call at `t₂ ≥ t₁` see the breaker the same way: as the breaker
`currentState` gives at `t₂`, or closed both. -/
theorem currentState_probe (b : Breaker) {t₁ t₂ : Int} (h : t₁ ≤ t₂) :
    (b.currentState t₁).currentState t₂ = b.currentState t₂ ∨
      ((b.currentState t₁).currentState t₂).state = .closed ∧ (b.currentState t₂).state = .closed := by
  rcases hs : b.state with _ | _ | _
  · exact .inr ⟨currentState_closed (currentState_closed hs t₁) t₂, currentState_closed hs t₂⟩
  · exact .inl (by rw [currentState_halfOpen hs])
  · left
    cases he : b.expiry with
    | none => simp [currentState, hs, he, setState, toNewGeneration]
    | some e =>
      by_cases h₁ : e < t₁
      · simp [currentState, hs, he, h₁, show e < t₂ by omega, setState, toNewGeneration]
      · rw [currentState_open hs he (by omega)]

/-- A generation started at `t` by a closed breaker with a positive `Interval` lasts up to
`t + Interval`. -/
theorem within_toNewGeneration {b : Breaker} (hs : b.state = .closed)
    (hI : 0 < b.settings.interval) {t t' : Int} (h : t' ≤ t + b.settings.interval) :
    (b.toNewGeneration t).Within t' := by
  refine ⟨hs, fun e he => ?_⟩
  simp only [toNewGeneration, hs, if_neg (by omega : b.settings.interval ≠ 0),
    Option.some.injEq] at he
  omega

/-- The first failure of a generation is counted, and trips nothing when the threshold is above
one. -/
theorem call_failure_first {b : Breaker} {t : Int} (hw : b.Within t) (hc : b.counts = Counts.clear)
    (hthr : 1 < b.settings.threshold) :
    (b.call t t false).2 = { b with counts := Counts.clear.onRequest.onFailure } := by
  rw [call_failure_within hw hw, hc]
  exact if_neg (by simp only [Counts.clear, Counts.onRequest, Counts.onFailure, succ32]; omega)

/-- A failed call on a closed breaker whose generation ended before it starts a new generation
that holds that one failure, when one failure is below the threshold. -/
theorem call_failure_expired {b : Breaker} {e t : Int} (hs : b.state = .closed)
    (he : b.expiry = some e) (ht : e < t) (hI : 0 < b.settings.interval)
    (hthr : 1 < b.settings.threshold) :
    (b.call t t false).2 = { b.toNewGeneration t with counts := Counts.clear.onRequest.onFailure } := by
  have hcur : b.currentState t = b.toNewGeneration t := by
    simp only [currentState, hs, he, if_pos ht]
  have hw : (b.toNewGeneration t).Within t := within_toNewGeneration hs hI (by omega)
  rw [call_currentState (by rw [hcur, currentState_within hw]), hcur]
  exact call_failure_first hw rfl hthr

theorem setState_state (b : Breaker) (s : State) (now : Int) : (b.setState s now).state = s := by
  unfold setState
  split
  · assumption
  · rfl

/-- A probe never changes whether the next call is admitted, nor the error of a refused one. -/
theorem probe_call (b : Breaker) {t₁ t₂ : Int} (h : t₁ ≤ t₂) (done : Int) (success : Bool) :
    ((b.currentState t₁).call t₂ done success).1 = (b.call t₂ done success).1 := by
  rw [call_fst, call_fst]
  rcases currentState_probe b h with hc | ⟨h₁, h₂⟩
  · rw [hc]
  · rw [h₁, h₂]

theorem probe_call_open :
    (⟨⟨1, 10, 10, 1⟩, .open, 3, Counts.clear, some 5⟩ : Breaker).currentState 6 =
        ⟨⟨1, 10, 10, 1⟩, .halfOpen, 4, Counts.clear, none⟩ ∧
      (((⟨⟨1, 10, 10, 1⟩, .open, 3, Counts.clear, some 5⟩ : Breaker).currentState 6).call 7 8
          false).1 =
        ((⟨⟨1, 10, 10, 1⟩, .open, 3, Counts.clear, some 5⟩ : Breaker).call 7 8 false).1 :=
  ⟨rfl, probe_call _ (by decide) 8 false⟩

/-- With a failure threshold of two, two failed calls at `ta` and `tb` after the generation of a
closed breaker ended open it when nothing else touched it: the first starts a generation up to
`ta + Interval`, and the second falls inside it. A probe at `t₁` before them, late enough that
`ta` falls in the generation it starts but `tb` does not, leaves the breaker closed: the second
failure starts yet another generation and counts alone. -/
theorem probe_keeps_closed {b : Breaker} {e t₁ ta tb : Int} (hs : b.state = .closed)
    (he : b.expiry = some e) (hI : 0 < b.settings.interval) (hthr : b.settings.threshold = 2)
    (h₁ : e < t₁) (h₂ : ta ≤ t₁ + b.settings.interval) (h₃ : t₁ + b.settings.interval < tb)
    (h₄ : tb ≤ ta + b.settings.interval) :
    (b.failAll [(ta, ta), (tb, tb)]).state = .open ∧
      ((b.currentState t₁).failAll [(ta, ta), (tb, tb)]).state = .closed := by
  have hI0 : b.settings.interval ≠ 0 := by omega
  have hthr1 : 1 < b.settings.threshold := by omega
  have hcur : b.currentState t₁ = b.toNewGeneration t₁ := by
    simp only [currentState, hs, he, if_pos h₁]
  constructor
  · -- the first failure starts the generation the second one falls in
    have hw : ({ b.toNewGeneration ta with counts := Counts.clear.onRequest.onFailure } :
        Breaker).Within tb := within_toNewGeneration hs hI h₄
    have htrip : b.settings.threshold ≤ succ32 (succ32 0) := by rw [hthr]; decide
    simp only [failAll, List.foldl_cons, List.foldl_nil]
    rw [call_failure_expired hs he (by omega) hI hthr1, call_failure_within hw hw]
    dsimp only
    split
    · exact setState_state _ _ _
    · exact absurd htrip ‹_›
  · -- the probe started the generation, and the second failure lands after it
    have hp := call_failure_first (within_toNewGeneration hs hI h₂) rfl hthr1
    have hq := call_failure_expired
      (b := { b.toNewGeneration t₁ with counts := Counts.clear.onRequest.onFailure })
      (e := t₁ + b.settings.interval) hs (by simp only [toNewGeneration, hs, if_neg hI0]) h₃ hI hthr1
    simp only [failAll, List.foldl_cons, List.foldl_nil, hcur, hp, hq]
    simp only [toNewGeneration, hs]

theorem probe_keeps_closed_at_one :
    (⟨⟨1, 10, 60, 2⟩, .closed, 1, Counts.clear, some 0⟩ : Breaker).state = .closed ∧
      (⟨⟨1, 10, 60, 2⟩, .closed, 1, Counts.clear, some 0⟩ : Breaker).expiry = some 0 ∧
      0 < (⟨⟨1, 10, 60, 2⟩, .closed, 1, Counts.clear, some 0⟩ : Breaker).settings.interval ∧
      (⟨⟨1, 10, 60, 2⟩, .closed, 1, Counts.clear, some 0⟩ : Breaker).settings.threshold = 2 ∧
      (0 : Int) < 1 ∧ (5 : Int) ≤ 1 + 10 ∧ (1 + 10 : Int) < 12 ∧ (12 : Int) ≤ 5 + 10 ∧
      ((⟨⟨1, 10, 60, 2⟩, .closed, 1, Counts.clear, some 0⟩ : Breaker).failAll
        [(5, 5), (12, 12)]).state = .open ∧
      (((⟨⟨1, 10, 60, 2⟩, .closed, 1, Counts.clear, some 0⟩ : Breaker).currentState 1).failAll
        [(5, 5), (12, 12)]).state = .closed :=
  ⟨rfl, rfl, by decide, rfl, by decide, by decide, by decide, by decide,
    probe_keeps_closed rfl rfl (by decide) rfl (by decide) (by decide) (by decide) (by decide)⟩

end Breaker

end Circuit

namespace Gateway

/-- `getServiceHealth()` at `now`, over the services `ListServices` returns, in its order:
`unhealthy` for a service whose breaker `IsOpen()` reports open, `healthy` otherwise. -/
def getServiceHealth (now : Int) :
    List String → Circuit.Manager → List (String × String) × Circuit.Manager
  | [], cm => ([], cm)
  | service :: services, cm =>
    match cm.getBreaker service with
    | none =>
      let rest := getServiceHealth now services cm
      ((service, "healthy") :: rest.1, rest.2)
    | some cb =>
      let r := cb.isOpen now
      let rest := getServiceHealth now services ⟨Function.update cm.breakers service (some r.2)⟩
      ((service, if r.1 then "unhealthy" else "healthy") :: rest.1, rest.2)

theorem getServiceHealth_snd (now : Int) {services : List String} (hnd : services.Nodup)
    (cm : Circuit.Manager) : (getServiceHealth now services cm).2 = cm.probed now services := by
  induction services generalizing cm with
  | nil => exact (Circuit.Manager.probed_nil cm now).symm
  | cons service services ih =>
    rw [List.nodup_cons] at hnd
    unfold getServiceHealth
    cases h : cm.getBreaker service with
    | none => rw [ih hnd.2, Circuit.Manager.probed_cons_none h]
    | some cb =>
      rw [ih hnd.2, Circuit.CircuitBreaker.isOpen_snd, Circuit.Manager.probed_cons_some h hnd.1]

theorem getServiceHealth_fst (now : Int) {services : List String} (hnd : services.Nodup)
    (cm : Circuit.Manager) :
    (getServiceHealth now services cm).1 = services.map fun s =>
      (s, match cm.breakers s with
        | some cb => if (cb.isOpen now).1 then "unhealthy" else "healthy"
        | none => "healthy") := by
  induction services generalizing cm with
  | nil => rfl
  | cons service services ih =>
    rw [List.nodup_cons] at hnd
    unfold getServiceHealth
    cases h : cm.getBreaker service with
    | none =>
      simp only [ih hnd.2, List.map_cons]
      rw [show cm.breakers service = none from h]
    | some cb =>
      simp only [ih hnd.2, List.map_cons]
      rw [show cm.breakers service = some cb from h]
      congr 1
      refine List.map_congr_left fun s hs => ?_
      rw [Function.update_noteq (fun (he : s = service) => hnd.1 (he ▸ hs))]

/-- A health check reports `unhealthy` exactly the listed services with an enabled breaker that
is open and whose timeout has not passed; an open breaker past its timeout is reported healthy.
It moves the breaker of every listed service by `currentState` at its instant, and leaves every
other breaker as it was. -/
theorem getServiceHealth_breakers (now : Int) {services : List String} (hnd : services.Nodup)
    (cm : Circuit.Manager) :
    (getServiceHealth now services cm).2 = cm.probed now services ∧
      ∀ s ∈ services, ((s, "unhealthy") ∈ (getServiceHealth now services cm).1 ↔
        ∃ b e, (cm.breakers s).bind Circuit.CircuitBreaker.breaker = some b ∧
          b.state = .open ∧ b.expiry = some e ∧ now ≤ e) := by
  refine ⟨getServiceHealth_snd now hnd cm, fun s hs => ?_⟩
  rw [getServiceHealth_fst now hnd, List.mem_map]
  constructor
  · rintro ⟨s', -, hs'⟩
    simp only [Prod.mk.injEq] at hs'
    obtain ⟨rfl, hu⟩ := hs'
    cases h : cm.breakers s' with
    | none =>
      simp only [h] at hu
      exact absurd hu (by decide)
    | some cb =>
      simp only [h] at hu
      split at hu
      · rename_i ho
        obtain ⟨b, e, hb, hbs, he, hle⟩ := (cb.isOpen_iff now).mp ho
        exact ⟨b, e, by simp [hb], hbs, he, hle⟩
      · exact absurd hu (by decide)
  · rintro ⟨b, e, hb, hbs, he, hle⟩
    refine ⟨s, hs, ?_⟩
    cases h : cm.breakers s with
    | none => simp [h] at hb
    | some cb =>
      have hcb : cb.breaker = some b := by simpa [h] using hb
      simp only [h, if_pos ((cb.isOpen_iff now).mpr ⟨b, e, hcb, hbs, he, hle⟩)]

theorem getServiceHealth_breakers_users :
    ["users", "orders"].Nodup ∧
      (getServiceHealth 5 ["users", "orders"]
          (Circuit.Manager.new.createBreaker "users" ⟨true, 2, 10, 1⟩ 0)).2 =
        (Circuit.Manager.new.createBreaker "users" ⟨true, 2, 10, 1⟩ 0).probed 5 ["users", "orders"] ∧
      ∀ s ∈ ["users", "orders"], ((s, "unhealthy") ∈ (getServiceHealth 5 ["users", "orders"]
          (Circuit.Manager.new.createBreaker "users" ⟨true, 2, 10, 1⟩ 0)).1 ↔
        ∃ b e, ((Circuit.Manager.new.createBreaker "users" ⟨true, 2, 10, 1⟩ 0).breakers s).bind
            Circuit.CircuitBreaker.breaker = some b ∧
          b.state = .open ∧ b.expiry = some e ∧ 5 ≤ e) :=
  ⟨by decide, getServiceHealth_breakers 5 (by decide) _⟩

end Gateway

end ApiGateway
