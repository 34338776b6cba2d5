import Mathlib.Data.List.Basic
import ApiGateway.Time

/-!
# ApiGateway.RateLimit.SlidingWindow

`SlidingWindow` keeps a log of request instants for each key. `Allow` drops the entries before
the cutoff `now.Add(-window)` from the head of the key's log, admits `now` iff fewer than `limit`
entries remain, and appends `now` when it admits it. The cutoff is `now - window` except for the
window `-2^63`, whose negation overflows: that cutoff lies `2^63` ns before `now`.

The head-trimming loop is correct only because the log stays sorted. `allow_run` describes a call
of any run on a fresh key exactly: the call is admitted iff fewer than `limit` earlier admitted
calls lie at or after the cutoff, and the log after it holds those calls followed by `now` when it
is admitted. From it:

* `log_sorted_length`: the log is sorted and holds at most `max limit 0` instants.
* `admitted_interval_le`: no closed interval of length `window` holds more than `max limit 0`
  admitted calls.
-/

namespace ApiGateway
namespace RateLimit

/-- `Window.requests` and the decision after `Allow` at `now`. -/
def Window.allow (limit window : Int) (requests : List Int) (now : Int) : Bool × List Int :=
  let requests := requests.dropWhile (· < now + Time.neg window)
  if limit ≤ requests.length then (false, requests) else (true, requests ++ [now])

/-- The instants of the admitted calls of a run, in order. -/
def admitted (calls : List (Int × Bool)) : List Int :=
  calls.filterMap fun c => if c.2 then some c.1 else none

@[simp] theorem admitted_nil : admitted [] = [] := rfl

@[simp] theorem admitted_append (l l' : List (Int × Bool)) :
    admitted (l ++ l') = admitted l ++ admitted l' := List.filterMap_append ..

@[simp] theorem admitted_singleton (t : Int) (b : Bool) :
    admitted [(t, b)] = if b then [t] else [] := by
  cases b <;> rfl

theorem admitted_sublist (calls : List (Int × Bool)) :
    (admitted calls).Sublist (calls.map (·.1)) := by
  induction calls with
  | nil => exact .slnil
  | cons c calls ih =>
    obtain ⟨t, b⟩ := c
    cases b
    · exact ih.cons t
    · exact ih.cons₂ t

/-- A sorted log loses exactly its entries before the cutoff. -/
theorem dropWhile_lt_eq_filter {l : List Int} (h : l.Pairwise (· ≤ ·)) (c : Int) :
    l.dropWhile (· < c) = l.filter (c ≤ ·) := by
  induction l with
  | nil => rfl
  | cons x l ih =>
    rw [List.pairwise_cons] at h
    by_cases hx : x < c
    · simp [List.dropWhile_cons, List.filter_cons, hx, ih h.2, not_le.mpr hx]
    · have hall : ∀ y ∈ l, c ≤ y := fun y hy => by have := h.1 y hy; omega
      simp [List.dropWhile_cons, List.filter_cons, hx, not_lt.mp hx, List.filter_eq_self.mpr
        (fun y hy => decide_eq_true (hall y hy))]

/-- `Window.allow` with its branch folded into the decision. -/
theorem Window.allow_eq (limit window : Int) (requests : List Int) (now : Int) :
    let kept := requests.dropWhile (· < now + Time.neg window)
    Window.allow limit window requests now =
      (decide ((kept.length : Int) < limit), kept ++ if (kept.length : Int) < limit then [now] else []) := by
  simp only [Window.allow]
  split <;> simp_all

/-- `SlidingWindow`: the logs by key, the limit and the window. A key with no entry has no
`Window` yet. -/
structure SlidingWindow where
  windows : String → Option (List Int)
  limit : Int
  window : Int

namespace SlidingWindow

/-- `NewSlidingWindow(limit, window)`. -/
def new (limit window : Int) : SlidingWindow := ⟨fun _ => none, limit, window⟩

/-- `Allow(key)` at `now`. The key's `Window` is created empty when missing, and the trimmed log
is stored whether or not `now` is admitted. -/
def allow (sw : SlidingWindow) (key : String) (now : Int) : Bool × SlidingWindow :=
  let r := Window.allow sw.limit sw.window ((sw.windows key).getD []) now
  (r.1, { sw with windows := Function.update sw.windows key (some r.2) })

/-- `Reset(key)`. -/
def reset (sw : SlidingWindow) (key : String) : SlidingWindow :=
  { sw with windows := Function.update sw.windows key none }

/-- `Allow(key)` at each instant of `ts` in turn: every call with its decision, and the limiter
after the last one. -/
def runKey (sw : SlidingWindow) (key : String) (ts : List Int) :
    List (Int × Bool) × SlidingWindow :=
  ts.foldl (fun acc t => ((acc.1 ++ [(t, (acc.2.allow key t).1)]), (acc.2.allow key t).2)) ([], sw)

/-- The log of `key`, empty when it has none. -/
def log (sw : SlidingWindow) (key : String) : List Int := (sw.windows key).getD []

@[simp] theorem allow_limit (sw : SlidingWindow) (key : String) (t : Int) :
    (sw.allow key t).2.limit = sw.limit := rfl

@[simp] theorem allow_window (sw : SlidingWindow) (key : String) (t : Int) :
    (sw.allow key t).2.window = sw.window := rfl

theorem allow_fst (sw : SlidingWindow) (key : String) (t : Int) :
    (sw.allow key t).1 = (Window.allow sw.limit sw.window (sw.log key) t).1 := rfl

theorem allow_windows (sw : SlidingWindow) (key : String) (t : Int) :
    (sw.allow key t).2.windows key = some (Window.allow sw.limit sw.window (sw.log key) t).2 := by
  simp [allow, log]

@[simp] theorem runKey_nil (sw : SlidingWindow) (key : String) : sw.runKey key [] = ([], sw) := rfl

theorem runKey_append (sw : SlidingWindow) (key : String) (p : List Int) (t : Int) :
    sw.runKey key (p ++ [t]) =
      ((sw.runKey key p).1 ++ [(t, ((sw.runKey key p).2.allow key t).1)],
        ((sw.runKey key p).2.allow key t).2) := by
  simp only [runKey, List.foldl_append, List.foldl_cons, List.foldl_nil]

theorem runKey_calls (sw : SlidingWindow) (key : String) (ts : List Int) :
    (sw.runKey key ts).1.map (·.1) = ts := by
  induction ts using List.reverseRecOn with
  | nil => rfl
  | append_singleton p t ih => simp [runKey_append, ih]

@[simp] theorem runKey_limit (sw : SlidingWindow) (key : String) (ts : List Int) :
    (sw.runKey key ts).2.limit = sw.limit := by
  induction ts using List.reverseRecOn with
  | nil => rfl
  | append_singleton p t ih => simp [runKey_append, ih]

@[simp] theorem runKey_window (sw : SlidingWindow) (key : String) (ts : List Int) :
    (sw.runKey key ts).2.window = sw.window := by
  induction ts using List.reverseRecOn with
  | nil => rfl
  | append_singleton p t ih => simp [runKey_append, ih]

/-- The admitted instants of a run are sorted when its instants are. -/
theorem admitted_sorted (sw : SlidingWindow) (key : String) {ts : List Int}
    (hs : ts.Pairwise (· ≤ ·)) : (admitted (sw.runKey key ts).1).Pairwise (· ≤ ·) :=
  hs.sublist (by simpa [runKey_calls] using admitted_sublist (sw.runKey key ts).1)

section Run

variable {sw : SlidingWindow} {key : String}

theorem allow_log (sw : SlidingWindow) (key : String) (t : Int) :
    (sw.allow key t).2.log key = (Window.allow sw.limit sw.window (sw.log key) t).2 := by
  simp [log, allow_windows]

/-- The run invariant on a fresh key: the log is a suffix of the admitted instants, and each
admitted instant before it was dropped by some call of the run. -/
theorem runKey_kept (hfresh : sw.log key = []) (ts : List Int) :
    ∃ pre, admitted (sw.runKey key ts).1 = pre ++ (sw.runKey key ts).2.log key ∧
      ∀ x ∈ pre, ∃ t ∈ ts, x < t + Time.neg sw.window := by
  induction ts using List.reverseRecOn with
  | nil => exact ⟨[], by simp [hfresh], by simp⟩
  | append_singleton p t ih =>
    obtain ⟨pre, hA, hpre⟩ := ih
    set s := (sw.runKey key p).2
    have hw : s.window = sw.window := runKey_window ..
    have hl : s.limit = sw.limit := runKey_limit ..
    refine ⟨pre ++ (s.log key).takeWhile (· < t + Time.neg sw.window), ?_, ?_⟩
    · rw [runKey_append, allow_log, admitted_append, hA, allow_fst, Window.allow_eq, hw, hl]
      simp only [admitted_singleton, decide_eq_true_eq, List.append_assoc]
      rw [← List.append_assoc _ (List.dropWhile _ _), List.takeWhile_append_dropWhile]
    · intro x hx
      rcases List.mem_append.mp hx with hx | hx
      · obtain ⟨t', ht', hlt⟩ := hpre x hx
        exact ⟨t', List.mem_append_left _ ht', hlt⟩
      · exact ⟨t, by simp, by simpa using List.mem_takeWhile_imp hx⟩

/-- On a sorted run from a fresh key, a call keeps exactly the earlier admitted instants at or
after its cutoff. -/
theorem kept_eq_filter (hfresh : sw.log key = []) {p : List Int} {t : Int}
    (hs : (p ++ [t]).Pairwise (· ≤ ·)) :
    ((sw.runKey key p).2.log key).dropWhile (· < t + Time.neg sw.window) =
      (admitted (sw.runKey key p).1).filter (t + Time.neg sw.window ≤ ·) := by
  obtain ⟨pre, hA, hpre⟩ := runKey_kept hfresh p
  have hsorted := admitted_sorted sw key (hs.sublist (List.sublist_append_left p [t]))
  rw [hA] at hsorted
  have hnil : pre.filter (t + Time.neg sw.window ≤ ·) = [] := by
    refine List.filter_eq_nil_iff.mpr fun x hx => ?_
    obtain ⟨t', ht', hlt⟩ := hpre x hx
    have : t' ≤ t := (List.pairwise_append.mp hs).2.2 t' ht' t (List.mem_singleton_self t)
    simp only [decide_eq_true_eq]
    omega
  rw [dropWhile_lt_eq_filter (hsorted.sublist (List.sublist_append_right _ _)), hA,
    List.filter_append, hnil, List.nil_append]

/-- A call of a sorted run on a fresh key: it is admitted iff fewer than `limit` earlier admitted
calls lie at or after its cutoff, and the log after it is those calls, then `now` when it is
admitted. -/
theorem allow_run (hfresh : sw.log key = []) {p : List Int} {t : Int}
    (hs : (p ++ [t]).Pairwise (· ≤ ·)) :
    let kept := (admitted (sw.runKey key p).1).filter (t + Time.neg sw.window ≤ ·)
    ((sw.runKey key p).2.allow key t).1 = decide ((kept.length : Int) < sw.limit) ∧
      ((sw.runKey key p).2.allow key t).2.log key =
        kept ++ if (kept.length : Int) < sw.limit then [t] else [] := by
  rw [allow_fst, allow_log, Window.allow_eq, runKey_window, runKey_limit, kept_eq_filter hfresh hs]
  exact ⟨rfl, rfl⟩

theorem log_length_le (hfresh : sw.log key = []) (ts : List Int) :
    (((sw.runKey key ts).2.log key).length : Int) ≤ max sw.limit 0 := by
  induction ts using List.reverseRecOn with
  | nil => simp [hfresh]
  | append_singleton p t ih =>
    rw [runKey_append, allow_log, Window.allow_eq, runKey_window, runKey_limit]
    have := (List.dropWhile_sublist (· < t + Time.neg sw.window) (l := (sw.runKey key p).2.log key)).length_le
    split
    · simp only [List.length_append, List.length_singleton, Nat.cast_add, Nat.cast_one]
      omega
    · simp only [List.append_nil]
      omega

/-- The log of a sorted run on a fresh key is sorted and holds at most `max limit 0` instants. -/
theorem log_sorted_length (hfresh : sw.log key = []) {ts : List Int} (hs : ts.Pairwise (· ≤ ·)) :
    ((sw.runKey key ts).2.log key).Pairwise (· ≤ ·) ∧
      (((sw.runKey key ts).2.log key).length : Int) ≤ max sw.limit 0 := by
  obtain ⟨pre, hA, -⟩ := runKey_kept hfresh ts
  have hsorted := admitted_sorted sw key hs
  rw [hA] at hsorted
  exact ⟨hsorted.sublist (List.sublist_append_right _ _), log_length_le hfresh ts⟩

/-- No closed interval of length `window` holds more than `max limit 0` admitted calls of a sorted
run on a fresh key. -/
theorem admitted_interval_le (hfresh : sw.log key = []) {ts : List Int}
    (hs : ts.Pairwise (· ≤ ·)) (a : Int) :
    (((admitted (sw.runKey key ts).1).filter (fun x => a ≤ x ∧ x ≤ a + sw.window)).length : Int) ≤
      max sw.limit 0 := by
  induction ts using List.reverseRecOn with
  | nil => simp
  | append_singleton p t ih =>
    have ih := ih (hs.sublist (List.sublist_append_left p [t]))
    have hdec := (allow_run hfresh hs).1
    rw [runKey_append, admitted_append, hdec, admitted_singleton, List.filter_append,
      List.length_append]
    split
    · rename_i hlt
      by_cases hin : a ≤ t ∧ t ≤ a + sw.window
      · -- every earlier admitted call in `[a, a + window]` is kept by the call at `t`
        have hneg : Time.neg sw.window = -sw.window := Time.neg_of_ne_min (by omega)
        have hsub := (List.monotone_filter_right (admitted (sw.runKey key p).1)
          (p := fun x => a ≤ x ∧ x ≤ a + sw.window) (q := (t + Time.neg sw.window ≤ ·))
          (fun x hx => by simp only [decide_eq_true_eq] at hx ⊢; omega)).length_le
        rw [List.filter_cons_of_pos (by simpa using hin), List.filter_nil, List.length_singleton]
        simp only [decide_eq_true_eq] at hlt
        omega
      · rw [List.filter_cons_of_neg (by simpa using hin), List.filter_nil]
        simpa using ih
    · simpa using ih

/-- What the sliding window guarantees to the calls on `key` of every run at nondecreasing
instants that starts with no log for `key`. -/
structure Exact (sw : SlidingWindow) (key : String) : Prop where
  /-- A call is admitted iff fewer than `limit` earlier admitted calls lie at or after the cutoff
  `now.Add(-window)`; the log after it is those calls, then `now` when it is admitted. -/
  call : ∀ p t, (p ++ [t]).Pairwise (· ≤ ·) →
    let kept := (admitted (sw.runKey key p).1).filter (t + Time.neg sw.window ≤ ·)
    ((sw.runKey key p).2.allow key t).1 = decide ((kept.length : Int) < sw.limit) ∧
      ((sw.runKey key p).2.allow key t).2.windows key =
        some (kept ++ if (kept.length : Int) < sw.limit then [t] else [])
  /-- The log is sorted and holds at most `max limit 0` instants. -/
  log : ∀ ts, ts.Pairwise (· ≤ ·) →
    ((sw.runKey key ts).2.log key).Pairwise (· ≤ ·) ∧
      (((sw.runKey key ts).2.log key).length : Int) ≤ max sw.limit 0
  /-- No closed interval of length `window` holds more than `max limit 0` admitted calls. -/
  interval : ∀ ts, ts.Pairwise (· ≤ ·) → ∀ a,
    (((admitted (sw.runKey key ts).1).filter (fun x => a ≤ x ∧ x ≤ a + sw.window)).length : Int) ≤
      max sw.limit 0

theorem log_exact (hfresh : sw.windows key = none) : Exact sw key := by
  have hlog : sw.log key = [] := by simp [log, hfresh]
  refine ⟨fun p t hs => ?_, fun ts hs => log_sorted_length hlog hs,
    fun ts hs a => admitted_interval_le hlog hs a⟩
  obtain ⟨h1, h2⟩ := allow_run hlog hs
  exact ⟨h1, by rw [allow_windows, ← allow_log, h2]⟩

theorem log_exact_new : (new 5 Time.second).windows "k" = none ∧ Exact (new 5 Time.second) "k" :=
  ⟨rfl, log_exact rfl⟩

/-- With a negative window the log keeps an admitted instant that lies before `now - window`. -/
theorem log_keeps_outside_window :
    ((new 1 (-1)).runKey "k" [0]).2.windows "k" = some [0] ∧
      (admitted ((new 1 (-1)).runKey "k" [0]).1).filter (0 - (-1) ≤ ·) = [] := by
  decide

end Run

end SlidingWindow
end RateLimit
end ApiGateway
