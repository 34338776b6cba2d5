import ApiGateway.RateLimit.SlidingWindow

/-!
# ApiGateway.RateLimit.FixedWindow

`FixedWindow` keeps a `Counter` for each key: a count and the aligned window it counts in, the
instant truncated to a multiple of `window`. `Allow` restarts the count when `now` falls in a
later window than the stored one, admits iff the count is below `limit`, and counts what it
admits. A new counter takes its window from a clock read before the counter's lock is taken.

`roll_run` is the counter a call of a run sees once the window check is done: its window is the
call's own and its count is `min (max limit 0) n`, `n` the earlier calls in that window. From it:

* `allow_run`: a call is admitted iff fewer than `limit` earlier calls fall in its window.
* `window_decisions`: the decisions of the calls in one window are `i < limit` for the `i`-th.
* `admitted_interval_le`: a closed interval of length `window > 0` holds at most
  `2 * max limit 0` admitted calls.
-/

namespace ApiGateway
namespace RateLimit

/-- A key's `Counter`. -/
structure Counter where
  count : Int
  window : Int
  deriving DecidableEq, Repr

/-- The window check of `Allow`: the count restarts when `now` is in a later window. -/
def Counter.roll (window : Int) (c : Counter) (now : Int) : Counter :=
  if c.window < Time.truncate now window then ⟨0, Time.truncate now window⟩ else c

/-- The `Counter` and the decision after `Allow` at `now`. -/
def Counter.allow (limit window : Int) (c : Counter) (now : Int) : Bool × Counter :=
  let c := c.roll window now
  if limit ≤ c.count then (false, c) else (true, { c with count := c.count + 1 })

/-- `FixedWindow`: the counters by key, the limit and the window. -/
structure FixedWindow where
  counters : String → Option Counter
  limit : Int
  window : Int

namespace FixedWindow

/-- `NewFixedWindow(limit, window)`. -/
def new (limit window : Int) : FixedWindow := ⟨fun _ => none, limit, window⟩

/-- The counter `Allow` finds for `key`: the stored one, or a new one whose window is the clock
read `created` truncated. -/
def counter (fw : FixedWindow) (key : String) (created : Int) : Counter :=
  (fw.counters key).getD ⟨0, Time.truncate created fw.window⟩

/-- `Allow(key)`: `created` is the clock read when the counter is made, `now` the one read under
the counter's lock. -/
def allow (fw : FixedWindow) (key : String) (created now : Int) : Bool × FixedWindow :=
  let r := Counter.allow fw.limit fw.window (fw.counter key created) now
  (r.1, { fw with counters := Function.update fw.counters key (some r.2) })

/-- `Reset(key)`. -/
def reset (fw : FixedWindow) (key : String) : FixedWindow :=
  { fw with counters := Function.update fw.counters key none }

/-- `Allow(key)` for each call `(created, now)` of `cs` in turn: every call's `now` with its
decision, and the limiter after the last one. -/
def runKey (fw : FixedWindow) (key : String) (cs : List (Int × Int)) :
    List (Int × Bool) × FixedWindow :=
  cs.foldl (fun acc c => (acc.1 ++ [(c.2, (acc.2.allow key c.1 c.2).1)],
    (acc.2.allow key c.1 c.2).2)) ([], fw)

/-- The number of calls among `calls` in the aligned window `w`. -/
def inWindow (window : Int) (calls : List (Int × Bool)) (w : Int) : Nat :=
  (calls.filter fun c => Time.truncate c.1 window = w).length

@[simp] theorem allow_limit (fw : FixedWindow) (key : String) (c t : Int) :
    (fw.allow key c t).2.limit = fw.limit := rfl

@[simp] theorem allow_window (fw : FixedWindow) (key : String) (c t : Int) :
    (fw.allow key c t).2.window = fw.window := rfl

theorem allow_counter (fw : FixedWindow) (key : String) (c t c' : Int) :
    (fw.allow key c t).2.counter key c' = (Counter.allow fw.limit fw.window (fw.counter key c) t).2 := by
  simp [allow, counter]

@[simp] theorem runKey_nil (fw : FixedWindow) (key : String) : fw.runKey key [] = ([], fw) := rfl

theorem runKey_append (fw : FixedWindow) (key : String) (p : List (Int × Int)) (c : Int × Int) :
    fw.runKey key (p ++ [c]) =
      ((fw.runKey key p).1 ++ [(c.2, ((fw.runKey key p).2.allow key c.1 c.2).1)],
        ((fw.runKey key p).2.allow key c.1 c.2).2) := by
  simp only [runKey, List.foldl_append, List.foldl_cons, List.foldl_nil]

theorem runKey_calls (fw : FixedWindow) (key : String) (cs : List (Int × Int)) :
    (fw.runKey key cs).1.map (·.1) = cs.map (·.2) := by
  induction cs using List.reverseRecOn with
  | nil => rfl
  | append_singleton p c ih => simp [runKey_append, ih]

@[simp] theorem runKey_limit (fw : FixedWindow) (key : String) (cs : List (Int × Int)) :
    (fw.runKey key cs).2.limit = fw.limit := by
  induction cs using List.reverseRecOn with
  | nil => rfl
  | append_singleton p c ih => simp [runKey_append, ih]

@[simp] theorem runKey_window (fw : FixedWindow) (key : String) (cs : List (Int × Int)) :
    (fw.runKey key cs).2.window = fw.window := by
  induction cs using List.reverseRecOn with
  | nil => rfl
  | append_singleton p c ih => simp [runKey_append, ih]

@[simp] theorem inWindow_nil (window w : Int) : inWindow window [] w = 0 := rfl

theorem inWindow_append (window : Int) (l : List (Int × Bool)) (t : Int) (b : Bool) (w : Int) :
    inWindow window (l ++ [(t, b)]) w =
      inWindow window l w + if Time.truncate t window = w then 1 else 0 := by
  simp only [inWindow, List.filter_append, List.length_append, List.filter_cons, List.filter_nil]
  split <;> simp_all

theorem inWindow_eq_zero {window : Int} {l : List (Int × Bool)} {w : Int}
    (h : ∀ x ∈ l, Time.truncate x.1 window ≠ w) : inWindow window l w = 0 := by
  simpa [inWindow, List.filter_eq_nil_iff] using h

/-- `Counter.allow` on a counter whose rolled count is `min (max limit 0) n`. -/
theorem Counter.allow_of_roll {limit window : Int} {c : Counter} {now w : Int} {n : Nat}
    (h : c.roll window now = ⟨min (max limit 0) n, w⟩) :
    Counter.allow limit window c now = (decide ((n : Int) < limit), ⟨min (max limit 0) (n + 1), w⟩) := by
  simp only [Counter.allow, h]
  split
  · rw [decide_eq_false (show ¬ (n : Int) < limit by omega)]
    congr 2
    omega
  · rw [decide_eq_true (show (n : Int) < limit by omega)]
    congr 2
    omega

theorem admitted_filter_length (calls : List (Int × Bool)) (P : Int → Bool) :
    ((admitted calls).filter P).length =
      ((calls.filter fun c => P c.1).map (·.2)).count true := by
  induction calls with
  | nil => rfl
  | cons c calls ih =>
    obtain ⟨t, b⟩ := c
    rw [show (t, b) :: calls = [(t, b)] ++ calls from rfl, admitted_append, admitted_singleton]
    cases b <;> by_cases h : P t <;> simp [List.filter_cons, h, ih]

theorem length_filter_le_add {l : List Int} {P Q R : Int → Bool} (h : ∀ x, P x → Q x ∨ R x) :
    (l.filter P).length ≤ (l.filter Q).length + (l.filter R).length := by
  induction l with
  | nil => simp
  | cons x l ih =>
    have hx := h x
    cases hP : P x <;> cases hQ : Q x <;> cases hR : R x <;>
      simp [List.filter_cons, hP, hQ, hR] at hx ⊢ <;> omega

section Run

variable {fw : FixedWindow} {key : String}

/-- The counter a call of a run on a fresh key sees once the window check is done. -/
theorem roll_run (hfresh : fw.counters key = none) {p : List (Int × Int)} {c t : Int}
    (hs : ((p ++ [(c, t)]).map (·.2)).Pairwise (· ≤ ·)) (hc : ∀ x ∈ p ++ [(c, t)], x.1 ≤ x.2) :
    ((fw.runKey key p).2.counter key c).roll fw.window t =
      ⟨min (max fw.limit 0) (inWindow fw.window (fw.runKey key p).1 (Time.truncate t fw.window)),
        Time.truncate t fw.window⟩ := by
  induction p using List.reverseRecOn generalizing c t with
  | nil =>
    have hle := Time.truncate_mono fw.window (show c ≤ t from hc (c, t) (by simp))
    simp only [runKey_nil, counter, hfresh, Option.getD_none, Counter.roll, inWindow_nil]
    split
    · simp
    · simp only [Counter.mk.injEq, Nat.cast_zero]; omega
  | append_singleton p x ih =>
    obtain ⟨c', t'⟩ := x
    rw [List.map_append] at hs
    have hs' := hs.sublist (List.sublist_append_left _ _)
    have hle : t' ≤ t := List.pairwise_append.mp hs |>.2.2 t' (by simp) t (by simp)
    have hprev : ∀ y ∈ (fw.runKey key (p ++ [(c', t')])).1, y.1 ≤ t' := by
      intro y hy
      have hy' : y.1 ∈ (p ++ [(c', t')]).map (·.2) := by
        rw [← runKey_calls fw key]; exact List.mem_map_of_mem _ hy
      rw [List.map_append] at hs' hy'
      rcases List.mem_append.mp hy' with hy' | hy'
      · exact List.pairwise_append.mp hs' |>.2.2 y.1 hy' t' (by simp)
      · simp at hy'; omega
    have hroll := ih hs' (fun x hx => hc x (List.mem_append_left _ hx))
    have hcount : (fw.runKey key (p ++ [(c', t')])).2.counter key c =
        ⟨min (max fw.limit 0) ((inWindow fw.window (fw.runKey key p).1 (Time.truncate t' fw.window) : Int) + 1),
          Time.truncate t' fw.window⟩ := by
      rw [runKey_append, allow_counter, runKey_limit, runKey_window, Counter.allow_of_roll hroll]
    have hmono := Time.truncate_mono fw.window hle
    rw [hcount, Counter.roll]
    dsimp only
    split
    · rename_i hlt
      rw [inWindow_eq_zero (fun y hy => ?_)]
      · simp
      · have := Time.truncate_mono fw.window (hprev y hy); omega
    · have heq : Time.truncate t' fw.window = Time.truncate t fw.window := by omega
      rw [runKey_append, inWindow_append, if_pos heq, heq]
      simp

/-- A call of a run on a fresh key is admitted iff fewer than `limit` earlier calls fall in its
aligned window. -/
theorem allow_run (hfresh : fw.counters key = none) {p : List (Int × Int)} {c t : Int}
    (hs : ((p ++ [(c, t)]).map (·.2)).Pairwise (· ≤ ·)) (hc : ∀ x ∈ p ++ [(c, t)], x.1 ≤ x.2) :
    ((fw.runKey key p).2.allow key c t).1 =
      decide ((inWindow fw.window (fw.runKey key p).1 (Time.truncate t fw.window) : Int) < fw.limit) := by
  show (Counter.allow _ _ _ t).1 = _
  rw [runKey_limit, runKey_window, Counter.allow_of_roll (roll_run hfresh hs hc)]

/-- The decisions of the calls of a run that fall in the aligned window `w`: the `i`-th is
admitted iff `i < limit`. -/
theorem window_decisions (hfresh : fw.counters key = none) {cs : List (Int × Int)}
    (hs : (cs.map (·.2)).Pairwise (· ≤ ·)) (hc : ∀ x ∈ cs, x.1 ≤ x.2) (w : Int) :
    ((fw.runKey key cs).1.filter (fun c => Time.truncate c.1 fw.window = w)).map (·.2) =
      (List.range (inWindow fw.window (fw.runKey key cs).1 w)).map
        fun (i : Nat) => decide ((i : Int) < fw.limit) := by
  induction cs using List.reverseRecOn with
  | nil => rfl
  | append_singleton p x ih =>
    obtain ⟨c, t⟩ := x
    have ih := ih (hs.sublist (by simp)) (fun y hy => hc y (List.mem_append_left _ hy))
    rw [runKey_append, inWindow_append, List.filter_append, List.map_append, ih]
    by_cases hw : Time.truncate t fw.window = w
    · rw [List.filter_cons_of_pos (by simpa using hw), List.filter_nil, if_pos hw,
        List.range_succ, List.map_append, allow_run hfresh hs hc, hw]
      rfl
    · rw [List.filter_cons_of_neg (by simpa using hw), List.filter_nil, if_neg hw]
      simp

theorem count_range_lt (limit : Int) (n : Nat) :
    (((List.range n).map fun (i : Nat) => decide ((i : Int) < limit)).count true : Int) =
      min (max limit 0) n := by
  induction n with
  | zero => simp
  | succ n ih =>
    rw [List.range_succ, List.map_append, List.count_append, Nat.cast_add, ih]
    by_cases h : (n : Int) < limit
    · rw [List.map_singleton, decide_eq_true h, List.count_singleton_self, Nat.cast_one]
      omega
    · rw [List.map_singleton, decide_eq_false h, show [false].count true = 0 from rfl,
        Nat.cast_zero]
      omega

/-- At most `max limit 0` calls of a run are admitted in one aligned window. -/
theorem window_admitted_le (hfresh : fw.counters key = none) {cs : List (Int × Int)}
    (hs : (cs.map (·.2)).Pairwise (· ≤ ·)) (hc : ∀ x ∈ cs, x.1 ≤ x.2) (w : Int) :
    (((admitted (fw.runKey key cs).1).filter (Time.truncate · fw.window = w)).length : Int) ≤
      max fw.limit 0 := by
  rw [admitted_filter_length, window_decisions hfresh hs hc, count_range_lt]
  exact min_le_left _ _

/-- A closed interval of length `window > 0` meets at most two aligned windows, so it holds at
most `2 * max limit 0` admitted calls. -/
theorem admitted_interval_le (hfresh : fw.counters key = none) {cs : List (Int × Int)}
    (hs : (cs.map (·.2)).Pairwise (· ≤ ·)) (hc : ∀ x ∈ cs, x.1 ≤ x.2) (hW : 0 < fw.window)
    (a : Int) :
    (((admitted (fw.runKey key cs).1).filter fun x => a ≤ x ∧ x ≤ a + fw.window).length : Int) ≤
      2 * max fw.limit 0 := by
  have h := length_filter_le_add (l := admitted (fw.runKey key cs).1)
    (P := fun x => a ≤ x ∧ x ≤ a + fw.window)
    (Q := (Time.truncate · fw.window = Time.truncate a fw.window))
    (R := (Time.truncate · fw.window = Time.truncate a fw.window + fw.window))
    (fun x hx => by simpa using Time.truncate_two_windows hW (by simp at hx; omega) (by simp at hx; omega))
  have h1 := window_admitted_le hfresh hs hc (Time.truncate a fw.window)
  have h2 := window_admitted_le hfresh hs hc (Time.truncate a fw.window + fw.window)
  omega

/-- The calls of a run read the clock in order: the instants read under the lock never go back,
and a call that makes its counter reads the clock for it first. -/
def Ordered (cs : List (Int × Int)) : Prop :=
  (cs.map (·.2)).Pairwise (· ≤ ·) ∧ ∀ x ∈ cs, x.1 ≤ x.2

/-- What the fixed window guarantees to the calls on `key` of every ordered run that starts with
no counter for `key`. -/
structure Exact (fw : FixedWindow) (key : String) : Prop where
  /-- In each aligned window `w`, the `i`-th call is admitted iff `i < limit`. -/
  window : ∀ cs, Ordered cs → ∀ w,
    ((fw.runKey key cs).1.filter (fun c => Time.truncate c.1 fw.window = w)).map (·.2) =
      (List.range (inWindow fw.window (fw.runKey key cs).1 w)).map
        fun (i : Nat) => decide ((i : Int) < fw.limit)
  /-- In each aligned window the number of admitted calls is `min (max limit 0) n`, `n` the
  number of calls in it. -/
  count : ∀ cs, Ordered cs → ∀ w,
    ((((fw.runKey key cs).1.filter (fun c => Time.truncate c.1 fw.window = w)).map (·.2)).count
      true : Int) = min (max fw.limit 0) (inWindow fw.window (fw.runKey key cs).1 w)
  /-- With `window > 0`: at most `max limit 0` admitted calls in an aligned window, and at most
  `2 * max limit 0` in a closed interval of length `window`. -/
  bound : 0 < fw.window → ∀ cs, Ordered cs →
    (∀ w, (((admitted (fw.runKey key cs).1).filter (Time.truncate · fw.window = w)).length : Int) ≤
      max fw.limit 0) ∧
    ∀ a, (((admitted (fw.runKey key cs).1).filter fun x => a ≤ x ∧ x ≤ a + fw.window).length : Int) ≤
      2 * max fw.limit 0

theorem window_counts_exact (hfresh : fw.counters key = none) : Exact fw key where
  window _ h w := window_decisions hfresh h.1 h.2 w
  count _ h w := by rw [window_decisions hfresh h.1 h.2 w, count_range_lt]
  bound hW _ h := ⟨window_admitted_le hfresh h.1 h.2, admitted_interval_le hfresh h.1 h.2 hW⟩

theorem window_counts_exact_new :
    (new 3 Time.second).counters "k" = none ∧ Exact (new 3 Time.second) "k" :=
  ⟨rfl, window_counts_exact rfl⟩

/-- With a negative limit no call is admitted, so an aligned window holds more admitted calls than
the limit. -/
theorem admitted_exceeds_negative_limit :
    ((new (-1) Time.second).runKey "k" [(0, 0)]).1 = [(0, false)] ∧
      (-1 : Int) < (((admitted ((new (-1) Time.second).runKey "k" [(0, 0)]).1).filter
        (Time.truncate · Time.second = Time.truncate 0 Time.second)).length : Int) := by
  decide

end Run

end FixedWindow
end RateLimit
end ApiGateway
