import ApiGateway.Circuit

/-!
# ApiGateway.Circuit.Flight

gobreaker's `Execute` holds the breaker's mutex in `beforeRequest` and in `afterRequest` only:
the protected function runs unlocked, so the calls of the proxy overlap, and a call may finish
after the breaker has moved to another generation. A `Flight` is the breaker and the generation
each call in flight was admitted in; an interleaving is a list of `Event`s, each with the instant
of its clock reading, in any order.

`afterRequest` drops the result of a call admitted in an earlier generation, and a new generation
starts with cleared counts. So the counts of a generation account for its own calls: those
completed and those still in flight.

* `step_accounted`, `run_accounted`: the accounting invariant holds after every start and every
  completion, so along every interleaving.
* `newBreaker_run_accounted`: along every interleaving from `NewCircuitBreaker`, `Requests` is,
  modulo `2^32`, the successes and failures of the generation plus its calls in flight; a
  half-open breaker has admitted at most `MaxRequests` calls in its generation; an open one none.
-/

namespace ApiGateway
namespace Circuit

/-- The breaker, and the generations the calls in flight were admitted in, in the order they
started. -/
structure Flight where
  breaker : Breaker
  inFlight : List Nat

/-- A call starting at `now` (`beforeRequest`), or the call in flight at `index` ending at `now`
with the outcome `success` (`afterRequest`). -/
inductive Event where
  | start (now : Int)
  | finish (index : Nat) (success : Bool) (now : Int)

namespace Breaker

/-- What `beforeRequest` does: it refuses the call, or counts it in the generation of the current
state, which is closed, or half-open below `MaxRequests`. -/
theorem beforeRequest_cases (b : Breaker) (now : Int) :
    (∃ e, b.beforeRequest now = (.error e, b.currentState now)) ∨
    (b.beforeRequest now = (.ok (b.currentState now).generation,
        { b.currentState now with counts := (b.currentState now).counts.onRequest }) ∧
      ((b.currentState now).state = .closed ∨ (b.currentState now).state = .halfOpen ∧
        (b.currentState now).counts.requests < (b.currentState now).settings.maxRequests)) := by
  unfold beforeRequest
  generalize b.currentState now = b₁
  rcases hs : b₁.state with _ | _ | _
  · exact .inr ⟨by simp only [hs], .inl rfl⟩
  · by_cases hm : b₁.settings.maxRequests ≤ b₁.counts.requests
    · exact .inl ⟨"too many requests", by simp only [hs, hm, if_true]⟩
    · exact .inr ⟨by simp only [hs, hm, if_false], .inr ⟨rfl, by omega⟩⟩
  · exact .inl ⟨"circuit breaker is open", by simp only [hs]⟩

end Breaker

namespace Flight

/-- The flight after an event. A refused call does not enter the flight. -/
def step (f : Flight) : Event → Flight
  | .start now =>
    match f.breaker.beforeRequest now with
    | (.error _, b) => ⟨b, f.inFlight⟩
    | (.ok g, b) => ⟨b, f.inFlight ++ [g]⟩
  | .finish k success now =>
    match f.inFlight[k]? with
    | none => f
    | some g => ⟨f.breaker.afterRequest g success now, f.inFlight.eraseIdx k⟩

/-- The flight after each event of `events` in turn. -/
def run (f : Flight) (events : List Event) : Flight := events.foldl step f

/-- The calls of the current generation still in flight. -/
def current (f : Flight) : Nat := f.inFlight.count f.breaker.generation

/-- The counts of the breaker account for the calls of its generation. -/
structure Accounted (f : Flight) : Prop where
  /-- No call in flight was admitted in a later generation. -/
  below : ∀ g ∈ f.inFlight, g ≤ f.breaker.generation
  /-- `Requests` is the completed calls of the generation plus those in flight, modulo `2^32`. -/
  requests : f.breaker.counts.requests =
    (f.breaker.counts.totalSuccesses + f.breaker.counts.totalFailures + f.current) % 2 ^ 32
  /-- Half-open, with no wrap, and at most `MaxRequests` of them. -/
  halfOpen : f.breaker.state = .halfOpen →
    f.breaker.counts.totalSuccesses + f.breaker.counts.totalFailures + f.current =
      f.breaker.counts.requests ∧ f.breaker.counts.requests ≤ f.breaker.settings.maxRequests
  /-- Open, the counts are cleared and no call of the generation is in flight. -/
  isOpen : f.breaker.state = .open → f.breaker.counts = Counts.clear ∧ f.current = 0
  /-- A success resets the consecutive failures, and a failure the consecutive successes. -/
  consecutive : f.breaker.counts.consecutiveSuccesses = 0 ∨ f.breaker.counts.consecutiveFailures = 0
  /-- `MaxRequests` is a `uint32`. -/
  maxRequests : f.breaker.settings.maxRequests < 2 ^ 32

theorem count_eraseIdx_add {α : Type} [DecidableEq α] {l : List α} {k : Nat} {g : α}
    (h : l[k]? = some g) (a : α) : (l.eraseIdx k).count a + (if g = a then 1 else 0) = l.count a := by
  induction l generalizing k with
  | nil => simp at h
  | cons x l ih =>
    cases k with
    | zero =>
      simp only [List.getElem?_cons_zero, Option.some_inj] at h
      subst h
      simp [List.count_cons]
    | succ k =>
      have := ih (by simpa using h)
      simp only [List.eraseIdx_cons_succ, List.count_cons, beq_iff_eq]
      omega

theorem eraseIdx_subset {α : Type} (l : List α) (k : Nat) : ∀ x ∈ l.eraseIdx k, x ∈ l :=
  fun _ hx => (List.eraseIdx_sublist l k).subset hx

/-- A new generation, in any state, accounts for no call. -/
theorem accounted_toNewGeneration {b : Breaker} {l : List Nat} (hb : ∀ g ∈ l, g ≤ b.generation)
    (hm : b.settings.maxRequests < 2 ^ 32) (now : Int) :
    Accounted ⟨b.toNewGeneration now, l⟩ := by
  have hc : (⟨b.toNewGeneration now, l⟩ : Flight).current = 0 :=
    List.count_eq_zero.mpr fun hg => by have := hb _ hg; simp only [Breaker.toNewGeneration] at this; omega
  refine ⟨fun g hg => Nat.le_succ_of_le (hb g hg), ?_, fun _ => ⟨?_, Nat.zero_le _⟩, fun _ => ⟨rfl, hc⟩,
    .inl rfl, hm⟩ <;> rw [hc] <;> rfl

/-- Moving to another state starts a new generation. -/
theorem accounted_setState_of_ne {b : Breaker} {l : List Nat} {s : State}
    (hb : ∀ g ∈ l, g ≤ b.generation) (hm : b.settings.maxRequests < 2 ^ 32) (hne : b.state ≠ s)
    (now : Int) : Accounted ⟨b.setState s now, l⟩ := by
  rw [Breaker.setState, if_neg hne]
  exact @accounted_toNewGeneration { b with state := s } l hb hm now

theorem accounted_setState {b : Breaker} {l : List Nat} (h : Accounted ⟨b, l⟩) (s : State)
    (now : Int) : Accounted ⟨b.setState s now, l⟩ := by
  by_cases hs : b.state = s
  · rw [Breaker.setState, if_pos hs]
    exact h
  · exact accounted_setState_of_ne h.below h.maxRequests hs now

/-- `currentState` keeps the accounting: it keeps the breaker or starts a new generation. -/
theorem accounted_currentState {b : Breaker} {l : List Nat} (h : Accounted ⟨b, l⟩) (now : Int) :
    Accounted ⟨b.currentState now, l⟩ := by
  unfold Breaker.currentState
  split
  · split
    · exact accounted_toNewGeneration h.below h.maxRequests now
    · exact h
  · split
    · exact accounted_setState h .halfOpen now
    · exact h
  · exact accounted_setState h .halfOpen now
  · exact h

/-- A call admitted by `beforeRequest` is counted and put in flight. -/
theorem accounted_onRequest {b : Breaker} {l : List Nat} (h : Accounted ⟨b, l⟩)
    (hs : b.state = .closed ∨ b.state = .halfOpen ∧ b.counts.requests < b.settings.maxRequests) :
    Accounted ⟨{ b with counts := b.counts.onRequest }, l ++ [b.generation]⟩ := by
  obtain ⟨hb, hr, hh, -, hcs, hm⟩ := h
  dsimp only at hm
  have hc : (l ++ [b.generation]).count b.generation = l.count b.generation + 1 := by simp
  refine ⟨fun g hg => ?_, ?_, fun hs' => ?_, fun hs' => ?_, hcs, hm⟩
  · rcases List.mem_append.mp hg with hg | hg
    · exact hb g hg
    · rw [List.mem_singleton.mp hg]
  · simp only [current, Counts.onRequest, succ32, hc] at hr ⊢
    omega
  · have hlt : b.counts.requests < b.settings.maxRequests := by
      rcases hs with hs | ⟨-, hs⟩
      · exact absurd (hs.symm.trans hs') (by decide)
      · exact hs
    obtain ⟨he, hle⟩ := hh hs'
    simp only [current, Counts.onRequest, succ32, hc] at he hle ⊢
    omega
  · rcases hs with hs | ⟨hs, -⟩ <;> exact absurd (hs.symm.trans hs') (by decide)

/-- `beforeRequest` keeps the accounting, whether it admits the call or refuses it. -/
theorem step_start {f : Flight} (h : f.Accounted) (now : Int) : (f.step (.start now)).Accounted := by
  have h₁ := accounted_currentState h now
  rcases f.breaker.beforeRequest_cases now with ⟨e, he⟩ | ⟨he, hs⟩ <;> simp only [step, he]
  · exact h₁
  · exact accounted_onRequest h₁ hs

/-- A completion of a call admitted in another generation changes no count. -/
theorem accounted_erase_stale {b : Breaker} {l : List Nat} {k g : Nat} (h : Accounted ⟨b, l⟩)
    (hk : l[k]? = some g) (hg : b.generation ≠ g) : Accounted ⟨b, l.eraseIdx k⟩ := by
  have hc := count_eraseIdx_add hk b.generation
  rw [if_neg (Ne.symm hg), Nat.add_zero] at hc
  obtain ⟨hb, hr, hh, ho, hcs, hm⟩ := h
  exact ⟨fun x hx => hb x (eraseIdx_subset l k x hx), by simpa only [current, hc] using hr,
    by simpa only [current, hc] using hh, by simpa only [current, hc] using ho, hcs, hm⟩

theorem current_ne_zero {b : Breaker} {l : List Nat} {k : Nat} (hk : l[k]? = some b.generation) :
    (⟨b, l⟩ : Flight).current ≠ 0 := by
  have hc := count_eraseIdx_add hk b.generation
  rw [if_pos rfl] at hc
  show l.count b.generation ≠ 0
  omega

/-- A completion of a call of the generation, in a state that is not open, counted by `count`:
one more success or failure, modulo `2^32`, with one of the consecutive counts cleared. -/
theorem accounted_count {b : Breaker} {l : List Nat} {k : Nat} (count : Counts → Counts)
    (hreq : ∀ c, (count c).requests = c.requests)
    (hmod : ∀ c, ((count c).totalSuccesses + (count c).totalFailures) % 2 ^ 32 =
      (c.totalSuccesses + c.totalFailures + 1) % 2 ^ 32)
    (hsum : ∀ c, c.totalSuccesses + c.totalFailures + 1 < 2 ^ 32 →
      (count c).totalSuccesses + (count c).totalFailures = c.totalSuccesses + c.totalFailures + 1)
    (hcons : ∀ c, (count c).consecutiveSuccesses = 0 ∨ (count c).consecutiveFailures = 0)
    (h : Accounted ⟨b, l⟩) (hk : l[k]? = some b.generation) (hs : b.state ≠ .open) :
    Accounted ⟨{ b with counts := count b.counts }, l.eraseIdx k⟩ := by
  have hc := count_eraseIdx_add hk b.generation
  rw [if_pos rfl] at hc
  obtain ⟨hb, hr, hh, -, -, hm⟩ := h
  dsimp only [current] at hr hh hm
  have h₁ := hreq b.counts
  have h₂ := hmod b.counts
  refine ⟨fun x hx => hb x (eraseIdx_subset l k x hx), ?_, fun hs' => ?_, fun hs' => absurd hs' hs,
    hcons _, hm⟩
  · simp only [current]
    omega
  · obtain ⟨he, hle⟩ := hh hs'
    have := hsum b.counts (by omega)
    simp only [current]
    omega

theorem accounted_countSuccess {b : Breaker} {l : List Nat} {k : Nat} (h : Accounted ⟨b, l⟩)
    (hk : l[k]? = some b.generation) (hs : b.state ≠ .open) :
    Accounted ⟨{ b with counts := b.counts.onSuccess }, l.eraseIdx k⟩ :=
  accounted_count Counts.onSuccess (fun _ => rfl)
    (fun _ => by simp only [Counts.onSuccess, succ32]; omega)
    (fun _ _ => by simp only [Counts.onSuccess, succ32]; omega) (fun _ => .inr rfl) h hk hs

theorem accounted_countFailure {b : Breaker} {l : List Nat} {k : Nat} (h : Accounted ⟨b, l⟩)
    (hk : l[k]? = some b.generation) (hs : b.state ≠ .open) :
    Accounted ⟨{ b with counts := b.counts.onFailure }, l.eraseIdx k⟩ :=
  accounted_count Counts.onFailure (fun _ => rfl)
    (fun _ => by simp only [Counts.onFailure, succ32]; omega)
    (fun _ _ => by simp only [Counts.onFailure, succ32]; omega) (fun _ => .inl rfl) h hk hs

/-- `onSuccess` of a call of the generation: counted, and the breaker may close. An open breaker
has no such call. -/
theorem accounted_onSuccess {b : Breaker} {l : List Nat} {k : Nat} (h : Accounted ⟨b, l⟩)
    (hk : l[k]? = some b.generation) (now : Int) : Accounted ⟨b.onSuccess now, l.eraseIdx k⟩ := by
  unfold Breaker.onSuccess
  split
  case h_1 hs => exact accounted_countSuccess h hk (by rw [hs]; decide)
  case h_2 hs =>
    have h₁ := accounted_countSuccess h hk (by rw [hs]; decide)
    dsimp only
    split
    · exact accounted_setState h₁ .closed now
    · exact h₁
  case h_3 hs => exact absurd (h.isOpen hs).2 (current_ne_zero hk)

/-- `onFailure` of a call of the generation: counted, and the breaker may open. -/
theorem accounted_onFailure {b : Breaker} {l : List Nat} {k : Nat} (h : Accounted ⟨b, l⟩)
    (hk : l[k]? = some b.generation) (now : Int) : Accounted ⟨b.onFailure now, l.eraseIdx k⟩ := by
  unfold Breaker.onFailure
  split
  case h_1 hs =>
    have h₁ := accounted_countFailure h hk (by rw [hs]; decide)
    dsimp only
    split
    · exact accounted_setState h₁ .open now
    · exact h₁
  case h_2 hs =>
    exact accounted_setState_of_ne (fun x hx => h.below x (eraseIdx_subset l k x hx)) h.maxRequests
      (by rw [hs]; decide) now
  case h_3 hs => exact absurd (h.isOpen hs).2 (current_ne_zero hk)

/-- `afterRequest` keeps the accounting, for a call of any generation ending in any state. -/
theorem step_finish {f : Flight} (h : f.Accounted) (k : Nat) (success : Bool) (now : Int) :
    (f.step (.finish k success now)).Accounted := by
  simp only [step]
  split
  case h_1 => exact h
  case h_2 g hk =>
    have h₁ := accounted_currentState h now
    by_cases hg : (f.breaker.currentState now).generation = g
    · subst hg
      cases success <;>
        simp only [Breaker.afterRequest, ne_eq, not_true_eq_false, if_false, if_true,
          Bool.false_eq_true]
      · exact accounted_onFailure h₁ hk now
      · exact accounted_onSuccess h₁ hk now
    · simp only [Breaker.afterRequest, ne_eq, hg, not_false_eq_true, if_true]
      exact accounted_erase_stale h₁ hk hg

theorem step_accounted {f : Flight} (h : f.Accounted) : ∀ e, (f.step e).Accounted
  | .start now => step_start h now
  | .finish k success now => step_finish h k success now

theorem run_accounted {f : Flight} (h : f.Accounted) (events : List Event) :
    (f.run events).Accounted := by
  induction events generalizing f with
  | nil => exact h
  | cons e events ih => exact ih (step_accounted h e)

theorem ofConfig_maxRequests_lt (cfg : CircuitBreakerConfig) :
    (Settings.ofConfig cfg).maxRequests < 2 ^ 32 := by
  simp only [Settings.ofConfig, u32]
  split <;> omega

/-- Along every interleaving of calls through a breaker of `NewCircuitBreaker`, whatever the
clock readings and the order the calls end in, its counts account for the calls of its
generation. -/
theorem newBreaker_run_accounted (cfg : CircuitBreakerConfig) (now : Int) (events : List Event) :
    (Flight.run ⟨newBreaker cfg now, []⟩ events).Accounted :=
  run_accounted (accounted_toNewGeneration (fun _ hg => absurd hg (List.not_mem_nil _))
    (ofConfig_maxRequests_lt cfg) now) events

end Flight
end Circuit
end ApiGateway
