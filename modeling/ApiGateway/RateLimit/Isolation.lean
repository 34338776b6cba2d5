import ApiGateway.RateLimit.Manager

/-!
# ApiGateway.RateLimit.Isolation

Every algorithm of a `ratelimit.Manager` keeps its state by key: the token bucket's limiters,
the sliding window's logs and the fixed window's counters are maps from the key, and the
distributed algorithm keeps one sorted set of the shared store for each key. `Allow(key)` and
`Reset(key)` read and write the entry of `key` alone.

So a manager and its store, seen at one key, are a limiter of that key alone: a `Slot` holds
the parameters of the algorithm `CheckLimit(key)` uses and the key's own state, and `KeyView`
adds the store's entry for the key. Each call on the key acts on the view as `KeyView.call`
says, and a call on another key leaves the view as it is.

* `run_on_key`: the outcomes of the calls on `key` in a run are those its view gives to the
  calls on `key` alone.
* `outcomes_without_other_key`: removing every call on another key from a run changes none of
  the outcomes of the calls on `key`.
-/

namespace ApiGateway
namespace RateLimit
namespace Algorithm

/-- What an algorithm keeps for one key: its parameters and the key's own state. -/
inductive Slot where
  | tokenBucket (rate burst : Int) (limiter : Option Limiter)
  | slidingWindow (limit window : Int) (log : Option (List Int))
  | fixedWindow (limit window : Int) (counter : Option Counter)
  | distributed (drl : DistributedRateLimit)

/-- The slot of `key` in an algorithm. -/
def slot (key : String) : Algorithm → Slot
  | .tokenBucket tb => .tokenBucket tb.rate tb.burst (tb.limiters key)
  | .slidingWindow sw => .slidingWindow sw.limit sw.window (sw.windows key)
  | .fixedWindow fw => .fixedWindow fw.limit fw.window (fw.counters key)
  | .distributed drl => .distributed drl

namespace Slot

/-- `Allow` on the key of a slot at `now`, with the key's entry `z` of the store and the store's
failure: the decision or the error, the slot and the entry after it. -/
def allow (z : ZKey) (failure : Option String) (now : Int) : Slot → Except String Bool × Slot × ZKey
  | .tokenBucket rate burst lim =>
    let r := (lim.getD (Limiter.new rate burst)).allow now
    (.ok r.1, .tokenBucket rate burst (some r.2), z)
  | .slidingWindow limit window log =>
    let r := Window.allow limit window (log.getD []) now
    (.ok r.1, .slidingWindow limit window (some r.2), z)
  | .fixedWindow limit window c =>
    let r := Counter.allow limit window (c.getD ⟨0, Time.truncate now window⟩) now
    (.ok r.1, .fixedWindow limit window (some r.2), z)
  | .distributed drl =>
    match failure with
    | some e => (.error ("rate limit error: " ++ e), .distributed drl, z)
    | none =>
      let r := drl.allow z now
      (.ok r.1, .distributed drl, r.2)

/-- `Reset` on the key of a slot. -/
def reset (z : ZKey) (failure : Option String) : Slot → Except String Unit × Slot × ZKey
  | .tokenBucket rate burst _ => (.ok (), .tokenBucket rate burst none, z)
  | .slidingWindow limit window _ => (.ok (), .slidingWindow limit window none, z)
  | .fixedWindow limit window _ => (.ok (), .fixedWindow limit window none, z)
  | .distributed drl =>
    match failure with
    | some e => (.error e, .distributed drl, z)
    | none => (.ok (), .distributed drl, ZKey.empty)

end Slot

variable (a : Algorithm) (store : Store) (key : String)

/-- `Allow(key)` acts on the slot and the store entry of `key` as `Slot.allow` does. -/
theorem allow_slot (now : Int) :
    ((a.allow store key now).1, (a.allow store key now).2.1.slot key,
      (a.allow store key now).2.2.keys key) = (a.slot key).allow (store.keys key) store.failure now := by
  cases a with
  | distributed drl => cases h : store.failure <;> simp [allow, slot, Slot.allow, h]
  | _ => simp [allow, slot, Slot.allow, TokenBucket.allow, TokenBucket.limiter, SlidingWindow.allow,
      FixedWindow.allow, FixedWindow.counter]

/-- `Allow(key)` leaves the slot and the store entry of every other key, and the store's
failure, as they were. -/
theorem allow_slot_ne {k : String} (h : k ≠ key) (now : Int) :
    (a.allow store key now).2.1.slot k = a.slot k ∧ (a.allow store key now).2.2.keys k = store.keys k := by
  cases a with
  | distributed drl => cases hf : store.failure <;> simp [allow, slot, hf, Function.update_noteq h]
  | _ => simp [allow, slot, TokenBucket.allow, SlidingWindow.allow, FixedWindow.allow,
      Function.update_noteq h]

@[simp] theorem allow_failure (now : Int) : (a.allow store key now).2.2.failure = store.failure := by
  cases a with
  | distributed drl => cases hf : store.failure <;> simp [allow, hf]
  | _ => rfl

@[simp] theorem reset_failure : (a.reset store key).2.2.failure = store.failure := by
  cases a with
  | distributed drl => cases hf : store.failure <;> simp [reset, hf]
  | _ => rfl

theorem reset_slot :
    ((a.reset store key).1, (a.reset store key).2.1.slot key, (a.reset store key).2.2.keys key) =
      (a.slot key).reset (store.keys key) store.failure := by
  cases a with
  | distributed drl => cases h : store.failure <;> simp [reset, slot, Slot.reset, h]
  | _ => simp [reset, slot, Slot.reset, TokenBucket.reset, SlidingWindow.reset, FixedWindow.reset]

theorem reset_slot_ne {k : String} (h : k ≠ key) :
    (a.reset store key).2.1.slot k = a.slot k ∧ (a.reset store key).2.2.keys k = store.keys k := by
  cases a with
  | distributed drl => cases hf : store.failure <;> simp [reset, slot, hf, Function.update_noteq h]
  | _ => simp [reset, slot, TokenBucket.reset, SlidingWindow.reset, FixedWindow.reset,
      Function.update_noteq h]

end Algorithm

/-- What a manager and its store keep for one key: whether rate limiting is on, the slot of the
key in the algorithm `CheckLimit(key)` uses, the key's entry of the store and the store's
failure. -/
structure KeyView where
  enabled : Bool
  slot : Option Algorithm.Slot
  zkey : ZKey
  failure : Option String

namespace KeyView

/-- A call on the key of a view: its outcome and the view after it. -/
def call (v : KeyView) : Call → Outcome × KeyView
  | .checkLimit _ now =>
    if !v.enabled then (.decision (.ok true), v)
    else
      match v.slot with
      | none => (.decision (.ok true), v)
      | some s =>
        let r := s.allow v.zkey v.failure now
        (.decision r.1, { v with slot := some r.2.1, zkey := r.2.2 })
  | .reset key =>
    match v.slot with
    | none => (.reset (.error ("no algorithm found for key: " ++ key)), v)
    | some s =>
      let r := s.reset v.zkey v.failure
      (.reset r.1, { v with slot := some r.2.1, zkey := r.2.2 })

/-- The outcomes of the calls of `cs` in turn on the key of a view. -/
def run (v : KeyView) : List Call → List Outcome
  | [] => []
  | c :: cs => (v.call c).1 :: (v.call c).2.run cs

end KeyView

namespace Manager

/-- The view of `key` in a manager and its store. -/
def keyView (m : Manager) (store : Store) (key : String) : KeyView :=
  ⟨m.config.enabled, (m.algorithms (m.algorithmKey key)).map (Algorithm.slot key), store.keys key,
    store.failure⟩

variable (m : Manager)

/-- The manager with the algorithm of `j` replaced, as `CheckLimit` and `Reset` leave it. -/
def replace (j : String) (a : Algorithm) : Manager :=
  { m with algorithms := Function.update m.algorithms j (some a) }

variable {m}

theorem algorithmKey_replace {j : String} {a : Algorithm} (hj : (m.algorithms j).isSome)
    (k : String) : (m.replace j a).algorithmKey k = m.algorithmKey k := by
  by_cases hk : k = j
  · subst hk; simp [replace, algorithmKey, hj]
  · simp [replace, algorithmKey, Function.update_noteq hk]

/-- The view of `k` once the algorithm `CheckLimit(key)` uses is replaced by `a'`. -/
theorem keyView_replace {key k : String} {a a' : Algorithm} (ha : m.algorithms (m.algorithmKey key) = some a)
    (store : Store) :
    (m.replace (m.algorithmKey key) a').keyView store k =
      if m.algorithmKey k = m.algorithmKey key then ⟨m.config.enabled, some (a'.slot k), store.keys k, store.failure⟩
      else m.keyView store k := by
  have hk := algorithmKey_replace (a := a') (by simp [ha] : (m.algorithms (m.algorithmKey key)).isSome) k
  simp only [keyView, hk]
  split
  · simp [replace, *]
  · simp [replace, Function.update_noteq ‹_›]

variable (m) (store : Store)

theorem checkLimit_eq (key : String) (now : Int) :
    m.checkLimit store key now =
      if !m.config.enabled then (.ok true, m, store)
      else match m.algorithms (m.algorithmKey key) with
        | none => (.ok true, m, store)
        | some a => ((a.allow store key now).1, m.replace (m.algorithmKey key) (a.allow store key now).2.1,
            (a.allow store key now).2.2) := by
  unfold checkLimit replace
  cases m.config.enabled <;> cases m.algorithms (m.algorithmKey key) <;> rfl

theorem reset_eq (key : String) :
    m.reset store key =
      match m.algorithms (m.algorithmKey key) with
      | none => (.error ("no algorithm found for key: " ++ key), m, store)
      | some a => ((a.reset store key).1, m.replace (m.algorithmKey key) (a.reset store key).2.1,
          (a.reset store key).2.2) := by
  unfold reset replace
  cases m.algorithms (m.algorithmKey key) <;> rfl

/-- A call on `key` acts on the view of `key` as `KeyView.call` says. -/
theorem call_keyView_self (c : Call) :
    ((m.call store c).1, (m.call store c).2.1.keyView (m.call store c).2.2 c.key) =
      (m.keyView store c.key).call c := by
  cases c with
  | checkLimit key now =>
    simp only [call, checkLimit_eq, Call.key]
    by_cases he : m.config.enabled
    · cases ha : m.algorithms (m.algorithmKey key) with
      | none => simp [keyView, KeyView.call, he, ha]
      | some a =>
        have hv : m.keyView store key = ⟨true, some (a.slot key), store.keys key, store.failure⟩ := by
          simp [keyView, ha, he]
        simp only [hv, keyView_replace ha, if_pos, he, KeyView.call, Bool.not_true,
          Bool.false_eq_true, ↓reduceIte, ← Algorithm.allow_slot, Algorithm.allow_failure]
    · simp [keyView, KeyView.call, he]
  | reset key =>
    simp only [call, reset_eq, Call.key]
    cases ha : m.algorithms (m.algorithmKey key) with
    | none => simp [keyView, KeyView.call, ha]
    | some a =>
      have hv : m.keyView store key = ⟨m.config.enabled, some (a.slot key), store.keys key,
          store.failure⟩ := by
        simp [keyView, ha]
      simp only [hv, keyView_replace ha, if_pos, KeyView.call, ← Algorithm.reset_slot,
        Algorithm.reset_failure]

/-- A call on another key leaves the view of `k` as it is. -/
theorem call_keyView_ne {c : Call} {k : String} (h : k ≠ c.key) :
    (m.call store c).2.1.keyView (m.call store c).2.2 k = m.keyView store k := by
  cases c with
  | checkLimit key now =>
    simp only [call, checkLimit_eq, Call.key] at h ⊢
    by_cases he : m.config.enabled
    · cases ha : m.algorithms (m.algorithmKey key) with
      | none => simp [he]
      | some a =>
        obtain ⟨hs, hz⟩ := Algorithm.allow_slot_ne a store key h now
        simp only [he, Bool.not_true, Bool.false_eq_true, ↓reduceIte, keyView_replace ha]
        split
        · simp [keyView, hs, hz, ha, *]
        · simp [keyView, hz]
    · simp [he]
  | reset key =>
    simp only [call, reset_eq, Call.key] at h ⊢
    cases ha : m.algorithms (m.algorithmKey key) with
    | none => rfl
    | some a =>
      obtain ⟨hs, hz⟩ := Algorithm.reset_slot_ne a store key h
      simp only [keyView_replace ha]
      split
      · simp [keyView, hs, hz, ha, *]
      · simp [keyView, hz]

theorem run_fst_cons (c : Call) (cs : List Call) :
    (m.run store (c :: cs)).1 =
      (c.key, (m.call store c).1) :: ((m.call store c).2.1.run (m.call store c).2.2 cs).1 := rfl

/-- The outcomes of the calls on `key` in a run are those the view of `key` gives to the calls
on `key` alone. -/
theorem run_on_key (key : String) (cs : List Call) :
    ((m.run store cs).1.filter (·.1 = key)).map (·.2) =
      (m.keyView store key).run (cs.filter (·.key = key)) := by
  induction cs generalizing m store with
  | nil => rfl
  | cons c cs ih =>
    rw [run_fst_cons]
    by_cases hc : c.key = key
    · subst hc
      have hself := call_keyView_self m store c
      rw [List.filter_cons_of_pos (by simp), List.filter_cons_of_pos (by simp), List.map_cons, ih,
        KeyView.run, ← hself]
    · rw [List.filter_cons_of_neg (by simpa using hc), List.filter_cons_of_neg (by simpa using hc), ih,
        call_keyView_ne m store (Ne.symm hc)]

end Manager

/-- In every run of `CheckLimit` and `Reset` calls on a manager, removing the calls on a key `b`
leaves the outcomes of the calls on every other key `a` as they were. -/
theorem outcomes_without_other_key (m : Manager) (store : Store) (cs : List Call) {a b : String}
    (hab : a ≠ b) :
    ((m.run store cs).1.filter (·.1 = a)).map (·.2) =
      ((m.run store (cs.filter (·.key ≠ b))).1.filter (·.1 = a)).map (·.2) := by
  rw [Manager.run_on_key, Manager.run_on_key, List.filter_filter]
  congr 1
  refine List.filter_congr fun c _ => ?_
  by_cases h : c.key = a
  · simp [h, hab]
  · simp [h]

theorem outcomes_without_other_key_token_bucket :
    "a" ≠ "b" ∧
      (((Manager.new ⟨true, "token_bucket", ⟨1, 2 * Time.second, 1⟩, [], []⟩ false).run Store.empty
          [.checkLimit "a" 0, .checkLimit "b" 0, .reset "b", .checkLimit "a" 1]).1.filter
          (·.1 = "a")).map (·.2) =
        (((Manager.new ⟨true, "token_bucket", ⟨1, 2 * Time.second, 1⟩, [], []⟩ false).run Store.empty
          ([.checkLimit "a" 0, .checkLimit "b" 0, .reset "b", .checkLimit "a" 1].filter
            (·.key ≠ "b"))).1.filter (·.1 = "a")).map (·.2) :=
  ⟨by decide, outcomes_without_other_key _ _ _ (by decide)⟩

end RateLimit
end ApiGateway
