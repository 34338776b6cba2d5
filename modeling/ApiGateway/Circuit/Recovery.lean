import ApiGateway.Circuit

/-!
# ApiGateway.Circuit.Recovery

How an open gobreaker breaker closes again. The first call after the open period moves the
breaker to half-open, in a new generation with cleared counts and no expiry, so the clock no
longer changes it. In half-open a call is admitted while fewer than `MaxRequests` calls of the
generation were. A success adds one to the consecutive successes, and the `MaxRequests`-th
success closes the breaker.

* `call_probe`: one successful call to a half-open breaker whose calls so far all succeeded.
* `callAll_probes`: successful calls one after the other, as many as `MaxRequests` still allows,
  are all admitted, and the last closes the breaker in the next generation.
* `open_recovers`: from an open breaker, `MaxRequests` successful calls, the first after the
  open period, are all admitted; the first finds the breaker half-open in a new generation with
  no expiry, and the last leaves it closed one generation later, with cleared counts.
-/

namespace ApiGateway
namespace Circuit
namespace Breaker

/-- `Execute` of each call in turn, each made at its first instant and returning at its second
with its outcome: the error of each refused call, and the breaker after them. -/
def callAll (b : Breaker) : List (Int × Int × Bool) → List (Option String) × Breaker
  | [] => ([], b)
  | (start, done, success) :: calls =>
    let r := b.call start done success
    let rest := r.2.callAll calls
    (r.1 :: rest.1, rest.2)

theorem currentState_halfOpen {b : Breaker} (hs : b.state = .halfOpen) (now : Int) :
    b.currentState now = b := by
  simp only [currentState, hs]

/-- A call sees the breaker as `currentState` leaves it at its start. -/
theorem call_currentState {b : Breaker} {start : Int}
    (h : (b.currentState start).currentState start = b.currentState start) (done : Int)
    (success : Bool) : b.call start done success = (b.currentState start).call start done success := by
  simp only [call, beforeRequest, h]

/-- A successful call to a half-open breaker whose `j` calls so far all succeeded, below
`MaxRequests`, is admitted and counted, and the `MaxRequests`-th success closes the breaker. -/
theorem call_probe {b : Breaker} {j : Nat} (hs : b.state = .halfOpen)
    (hr : b.counts.requests = j) (hc : b.counts.consecutiveSuccesses = j)
    (hj : j < b.settings.maxRequests) (hm : b.settings.maxRequests < 2 ^ 32) (start done : Int) :
    b.call start done true = (none,
      if b.settings.maxRequests ≤ j + 1 then
        ({ b with counts := b.counts.onRequest.onSuccess } : Breaker).setState .closed done
      else { b with counts := b.counts.onRequest.onSuccess }) := by
  have hsucc : succ32 j = j + 1 := Nat.mod_eq_of_lt (by omega)
  have hb : b.beforeRequest start = (.ok b.generation, { b with counts := b.counts.onRequest }) := by
    simp only [beforeRequest, currentState_halfOpen hs, hs, hr, if_neg (Nat.not_le.mpr hj)]
  simp only [call, hb, afterRequest, currentState, onSuccess, hs, ne_eq, not_true_eq_false, if_false, if_true,
    Counts.onSuccess, Counts.onRequest, hc, hsucc]

/-- Successful calls one after the other to a half-open breaker whose calls so far all
succeeded, as many as `MaxRequests` still allows: all are admitted, and the last closes the
breaker, in the next generation with cleared counts, which expires `Interval` after the last call
returns (never for a zero `Interval`). -/
theorem callAll_probes (ts : List (Int × Int)) :
    ∀ b : Breaker, b.state = .halfOpen → b.counts.requests = b.counts.consecutiveSuccesses →
      b.settings.maxRequests < 2 ^ 32 →
      b.counts.consecutiveSuccesses + ts.length = b.settings.maxRequests → ∀ last, ts.getLast? = some last →
      (b.callAll (ts.map fun t => (t.1, t.2, true))).1 = ts.map (fun _ => none) ∧
        (b.callAll (ts.map fun t => (t.1, t.2, true))).2 =
          { b with state := .closed, generation := b.generation + 1, counts := Counts.clear,
                   expiry := if b.settings.interval = 0 then none else some (last.2 + b.settings.interval) } := by
  induction ts with
  | nil => intro _ _ _ _ _ _ h; cases h
  | cons t rest ih =>
    intro b hs hr hm hlen last hlast
    simp only [List.length_cons] at hlen
    simp only [List.map_cons, callAll, call_probe hs hr rfl (by omega) hm]
    split
    · have hrest : rest = [] := List.eq_nil_of_length_eq_zero (by omega)
      subst hrest
      rw [List.getLast?_singleton, Option.some_inj] at hlast
      subst hlast
      have hne : ({ b with counts := b.counts.onRequest.onSuccess } : Breaker).state ≠ .closed := by
        simp only [hs]
        decide
      simp only [List.map_nil, callAll, setState, if_neg hne, toNewGeneration, and_self]
    · have hsucc : succ32 b.counts.consecutiveSuccesses = b.counts.consecutiveSuccesses + 1 :=
        Nat.mod_eq_of_lt (by omega)
      obtain ⟨u, us, rfl⟩ :=
        List.exists_cons_of_ne_nil (List.ne_nil_of_length_pos (show 0 < rest.length by omega))
      rw [List.getLast?_cons_cons] at hlast
      obtain ⟨h₁, h₂⟩ := ih { b with counts := b.counts.onRequest.onSuccess } hs
        (by simp only [Counts.onSuccess, Counts.onRequest, hr]) hm
        (by simp only [Counts.onSuccess, Counts.onRequest, hsucc]; omega) last hlast
      exact ⟨congrArg _ h₁, h₂⟩

/-- An open breaker, once its open period is over, admits `MaxRequests` successful calls made
one after the other. The first call finds it half-open, in the next generation with cleared
counts and no expiry; after the last it is closed, one generation later, with cleared counts,
expiring `Interval` after the last call returns (never for a zero `Interval`). -/
theorem open_recovers {b : Breaker} {e : Int} (hs : b.state = .open) (he : b.expiry = some e)
    (hm : b.settings.maxRequests < 2 ^ 32) {s₀ d₀ : Int} (h₀ : e < s₀) (rest : List (Int × Int))
    (hlen : rest.length + 1 = b.settings.maxRequests) :
    b.currentState s₀ =
        { b with state := .halfOpen, generation := b.generation + 1, counts := Counts.clear,
                 expiry := none } ∧
      (b.callAll (((s₀, d₀) :: rest).map fun t => (t.1, t.2, true))).1 =
        ((s₀, d₀) :: rest).map (fun _ => none) ∧
      (b.callAll (((s₀, d₀) :: rest).map fun t => (t.1, t.2, true))).2 =
        { b with state := .closed, generation := b.generation + 2, counts := Counts.clear,
                 expiry := if b.settings.interval = 0 then none
                   else some ((((s₀, d₀) :: rest).getLast (List.cons_ne_nil _ _)).2 + b.settings.interval) } := by
  have h₁ : b.currentState s₀ =
      { b with state := .halfOpen, generation := b.generation + 1, counts := Counts.clear,
               expiry := none } := by
    simp only [currentState, hs, he, if_pos h₀, setState, if_neg (by decide : State.open ≠ .halfOpen),
      toNewGeneration]
  have hcall := call_currentState (currentState_halfOpen (by rw [h₁]) s₀) d₀ true
  obtain ⟨h₂, h₃⟩ := callAll_probes ((s₀, d₀) :: rest) (b.currentState s₀) (by rw [h₁])
    (by rw [h₁]; rfl) (by rw [h₁]; exact hm) (by simp only [h₁, Counts.clear, List.length_cons]; omega)
    _ (List.getLast?_eq_getLast _ (List.cons_ne_nil _ _))
  refine ⟨h₁, ?_, ?_⟩
  · simpa only [List.map_cons, callAll, hcall] using h₂
  · simpa only [List.map_cons, callAll, hcall, h₁] using h₃

theorem open_recovers_two_probes :
    (⟨⟨2, 0, 10, 1⟩, .open, 1, Counts.clear, some 5⟩ : Breaker).state = .open ∧
      (⟨⟨2, 0, 10, 1⟩, .open, 1, Counts.clear, some 5⟩ : Breaker).expiry = some 5 ∧
      (⟨⟨2, 0, 10, 1⟩, .open, 1, Counts.clear, some 5⟩ : Breaker).settings.maxRequests < 2 ^ 32 ∧
      (5 : Int) < 6 ∧ [((8 : Int), (9 : Int))].length + 1 =
        (⟨⟨2, 0, 10, 1⟩, .open, 1, Counts.clear, some 5⟩ : Breaker).settings.maxRequests ∧
      (⟨⟨2, 0, 10, 1⟩, .open, 1, Counts.clear, some 5⟩ : Breaker).currentState 6 =
        ⟨⟨2, 0, 10, 1⟩, .halfOpen, 2, Counts.clear, none⟩ ∧
      ((⟨⟨2, 0, 10, 1⟩, .open, 1, Counts.clear, some 5⟩ : Breaker).callAll
          ([((6 : Int), (7 : Int)), (8, 9)].map fun t => (t.1, t.2, true))).1 =
          [((6 : Int), (7 : Int)), (8, 9)].map (fun _ => none) ∧
        ((⟨⟨2, 0, 10, 1⟩, .open, 1, Counts.clear, some 5⟩ : Breaker).callAll
          ([((6 : Int), (7 : Int)), (8, 9)].map fun t => (t.1, t.2, true))).2 =
          ⟨⟨2, 0, 10, 1⟩, .closed, 3, Counts.clear, none⟩ :=
  ⟨rfl, rfl, by decide, by decide, rfl, open_recovers rfl rfl (by decide) (by decide) _ rfl⟩

end Breaker
end Circuit
end ApiGateway
