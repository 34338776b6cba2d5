import ApiGateway.RateLimit.SlidingWindow

/-!
# ApiGateway.RateLimit.Distributed

`DistributedRateLimit` runs one Lua script atomically on a shared store for each `Allow(key)`.
The script drops the members of the key's sorted set scored at most `now - window * 1000`,
reads the cardinality, and when it is below `limit` adds `now` (as member and score) and sets
the key's time to live to `window` seconds. `Allow` passes the window in milliseconds and the
instant as `UnixMilli`. The store's clock is taken to read the `now` of the run in progress.

* `script_run`: on runs at strictly increasing instants, a call is admitted iff fewer than
  `limit` earlier admitted calls lie strictly after `now - windowMs * 1000`; the time to live
  never removes a member the trim would keep.
* `same_millisecond_admits_three`: the member is `now` itself, so runs in one millisecond add
  nothing to the cardinality, and a limit of two admits three of them.
-/

namespace ApiGateway
namespace RateLimit

/-- A key of the shared store holding the script's sorted set: its members, each scored by its
own value, and the instant (ms) it expires at. An empty set is no key, so it has no expiry. -/
structure ZKey where
  members : List Int
  expiresAt : Option Int
  deriving DecidableEq, Repr

namespace ZKey

/-- A key that does not exist. -/
def empty : ZKey := ⟨[], none⟩

/-- The members the store shows at `now`: none once the key has expired. -/
def live (k : ZKey) (now : Int) : List Int :=
  match k.expiresAt with
  | some d => if d < now then [] else k.members
  | none => k.members

end ZKey

/-- `ZADD key now now`: a member already in the set keeps its place. -/
def zadd (now : Int) (z : List Int) : List Int := if now ∈ z then z else z ++ [now]

/-- The script of `NewDistributedRateLimit` with arguments `window`, `limit` and `now`: the reply
`{allowed, remaining}` and the key after it. `EXPIRE` with a time to live that is not positive
deletes the key. -/
def script (window limit now : Int) (k : ZKey) : (Int × Int) × ZKey :=
  let z := (k.live now).filter (now - window * 1000 < ·)
  let current : Int := z.length
  if current < limit then
    ((1, limit - current - 1),
      if window ≤ 0 then ZKey.empty else ⟨zadd now z, some (now + window * 1000)⟩)
  else ((0, 0), if z = [] then ZKey.empty else ⟨z, k.expiresAt⟩)

/-- `DistributedRateLimit`: the limit and the window (a `time.Duration`) it passes to the script. -/
structure DistributedRateLimit where
  limit : Int
  window : Int

namespace DistributedRateLimit

/-- `int64(drl.window / time.Millisecond)`: Go's division truncates toward zero. -/
def windowMs (drl : DistributedRateLimit) : Int := drl.window.tdiv Time.millisecond

/-- `Allow(key)` at the instant `t` against the key as the store holds it. -/
def allow (drl : DistributedRateLimit) (k : ZKey) (t : Int) : Bool × ZKey :=
  let r := script drl.windowMs drl.limit (Time.unixMilli t) k
  (r.1.1 == 1, r.2)

/-- `Allow(key)` at each instant of `ts` in turn from the key `k`: each call's `UnixMilli` with
its decision, and the key after the last call. -/
def runKey (drl : DistributedRateLimit) (k : ZKey) (ts : List Int) : List (Int × Bool) × ZKey :=
  ts.foldl (fun acc t => (acc.1 ++ [(Time.unixMilli t, (drl.allow acc.2 t).1)],
    (drl.allow acc.2 t).2)) ([], k)

@[simp] theorem runKey_nil (drl : DistributedRateLimit) (k : ZKey) : drl.runKey k [] = ([], k) := rfl

theorem runKey_append (drl : DistributedRateLimit) (k : ZKey) (p : List Int) (t : Int) :
    drl.runKey k (p ++ [t]) =
      ((drl.runKey k p).1 ++ [(Time.unixMilli t, (drl.allow (drl.runKey k p).2 t).1)],
        (drl.allow (drl.runKey k p).2 t).2) := by
  simp only [runKey, List.foldl_append, List.foldl_cons, List.foldl_nil]

end DistributedRateLimit

/-- What a key holds after script runs at the instants `calls` that admitted `adm`, for the trim
span `span`: from any later instant the members the trim keeps are the admitted instants it
keeps, and the key expires no sooner than `span` after every admitted instant. -/
structure Tracks (span : Int) (calls adm : List Int) (k : ZKey) : Prop where
  kept : ∀ n, (∀ x ∈ calls, x < n) → (k.live n).filter (n - span < ·) = adm.filter (n - span < ·)
  expiry : ∀ d, k.expiresAt = some d → ∀ x ∈ adm, x ≤ d - span
  sub : ∀ x ∈ adm, x ∈ calls

theorem tracks_empty (span : Int) : Tracks span [] [] ZKey.empty :=
  ⟨fun _ _ => rfl, fun _ h => (nomatch h), fun _ h => (nomatch h)⟩

theorem filter_lt_filter_lt {c c' : Int} (h : c ≤ c') (l : List Int) :
    (l.filter (c < ·)).filter (c' < ·) = l.filter (c' < ·) := by
  rw [List.filter_filter]
  exact List.filter_congr fun x _ => by
    by_cases hx : c' < x
    · simp [hx]
      omega
    · simp [hx]

theorem filter_lt_eq_nil {c : Int} {l : List Int} (h : ∀ x ∈ l, x ≤ c) :
    l.filter (c < ·) = [] :=
  List.filter_eq_nil_iff.mpr fun x hx => by simpa using h x hx

/-- The trim of what the store shows is that of `l` when the members agree with `l` above the
cutoff and an expiry past at `n` leaves nothing of `l` above it. -/
theorem ZKey.live_filter {k : ZKey} {n c : Int} {l : List Int}
    (hm : k.members.filter (c < ·) = l.filter (c < ·))
    (he : ∀ d, k.expiresAt = some d → d < n → l.filter (c < ·) = []) :
    (k.live n).filter (c < ·) = l.filter (c < ·) := by
  unfold ZKey.live
  split
  · rename_i d hd
    split
    · exact (he d hd ‹_›).symm
    · exact hm
  · exact hm

/-- One run of the script on a key that tracks the earlier runs, at an instant after all of
them: it admits iff fewer than `limit` admitted instants lie after `now - window * 1000`, and
the key it leaves tracks the runs so far. -/
theorem script_tracks {window limit n : Int} {calls adm : List Int} {k : ZKey}
    (hk : Tracks (window * 1000) calls adm k) (hn : ∀ x ∈ calls, x < n) :
    let kept := adm.filter (n - window * 1000 < ·)
    ((script window limit n k).1.1 = 1 ↔ (kept.length : Int) < limit) ∧
      Tracks (window * 1000) (calls ++ [n]) (adm ++ if (kept.length : Int) < limit then [n] else [])
        (script window limit n k).2 := by
  intro kept
  have hkept := hk.kept n hn
  have hadm : ∀ x ∈ adm, x < n := fun x hx => hn x (hk.sub x hx)
  have hlt : ∀ n', (∀ x ∈ calls ++ [n], x < n') → n < n' := fun n' h => h n (by simp)
  simp only [script, hkept]
  split
  · rename_i hl
    refine ⟨by simp [hl], ?_⟩
    simp only [if_pos hl]
    split
    · refine ⟨fun n' hn' => ?_, fun _ h => (nomatch h), fun x hx => ?_⟩
      · have := hlt n' hn'
        refine (filter_lt_eq_nil fun x hx => ?_).symm
        rcases List.mem_append.mp hx with hx | hx
        · have := hadm x hx; omega
        · simp at hx; omega
      · rcases List.mem_append.mp hx with hx | hx
        · exact List.mem_append_left _ (hk.sub x hx)
        · exact List.mem_append_right _ hx
    · have hnk : n ∉ kept := fun h => by have := hadm n (List.mem_of_mem_filter h); omega
      refine ⟨fun n' hn' => ZKey.live_filter ?_ fun d hd hd' => ?_, fun d hd x hx => ?_,
        fun x hx => ?_⟩
      · have := hlt n' hn'
        simp only [zadd, if_neg hnk, List.filter_append, kept,
          filter_lt_filter_lt (show n - window * 1000 ≤ n' - window * 1000 by omega)]
      · cases hd
        refine filter_lt_eq_nil fun x hx => ?_
        rcases List.mem_append.mp hx with hx | hx
        · have := hadm x hx; omega
        · simp at hx; omega
      · cases hd
        rcases List.mem_append.mp hx with hx | hx
        · have := hadm x hx; omega
        · simp at hx; omega
      · rcases List.mem_append.mp hx with hx | hx
        · exact List.mem_append_left _ (hk.sub x hx)
        · exact List.mem_append_right _ hx
  · rename_i hl
    refine ⟨by simp [hl], ?_⟩
    simp only [if_neg hl, List.append_nil]
    refine ⟨fun n' hn' => ?_, fun d hd x hx => ?_, fun x hx => List.mem_append_left _ (hk.sub x hx)⟩
    · have hle : n - window * 1000 ≤ n' - window * 1000 := by have := hlt n' hn'; omega
      split
      · rename_i hnil
        rw [← filter_lt_filter_lt hle adm, hnil]
        rfl
      · refine ZKey.live_filter (filter_lt_filter_lt hle adm) fun d hd hd' => ?_
        exact filter_lt_eq_nil fun x hx => by have := hk.expiry d hd x hx; omega
    · split at hd
      · cases hd
      · exact hk.expiry d hd x hx

namespace DistributedRateLimit

theorem allow_fst (drl : DistributedRateLimit) (k : ZKey) (t : Int) :
    (drl.allow k t).1 = decide ((script drl.windowMs drl.limit (Time.unixMilli t) k).1.1 = 1) := rfl

/-- A run at strictly increasing milliseconds from a fresh key leaves a key that tracks it. -/
theorem runKey_tracks (drl : DistributedRateLimit) {ts : List Int}
    (hs : (ts.map Time.unixMilli).Pairwise (· < ·)) :
    Tracks (drl.windowMs * 1000) (ts.map Time.unixMilli) (admitted (drl.runKey ZKey.empty ts).1)
      (drl.runKey ZKey.empty ts).2 := by
  induction ts using List.reverseRecOn with
  | nil => exact tracks_empty _
  | append_singleton p t ih =>
    rw [List.map_append, List.pairwise_append] at hs
    obtain ⟨h1, h2⟩ := @script_tracks _ drl.limit _ _ _ _ (ih hs.1)
      (fun x hx => hs.2.2 x hx _ (List.mem_singleton_self _))
    simpa only [runKey_append, List.map_append, List.map_cons, List.map_nil, admitted_append,
      admitted_singleton, allow_fst, h1, decide_eq_true_eq] using h2

/-- A call at strictly increasing milliseconds from a fresh key is admitted iff fewer than `limit`
earlier admitted calls lie strictly after `now - windowMs * 1000`. -/
theorem admits_iff_fewer_after_span (drl : DistributedRateLimit) (p : List Int) (t : Int)
    (hs : ((p ++ [t]).map Time.unixMilli).Pairwise (· < ·)) :
    (drl.allow (drl.runKey ZKey.empty p).2 t).1 =
      decide ((((admitted (drl.runKey ZKey.empty p).1).filter
        (Time.unixMilli t - drl.windowMs * 1000 < ·)).length : Int) < drl.limit) := by
  rw [List.map_append, List.pairwise_append] at hs
  simp only [allow_fst, (script_tracks (runKey_tracks drl hs.1)
    (fun x hx => hs.2.2 x hx _ (List.mem_singleton_self _))).1]

theorem admits_iff_fewer_after_span_second :
    (([0] ++ [2000000000]).map Time.unixMilli).Pairwise (· < ·) ∧
      ((⟨1, Time.second⟩ : DistributedRateLimit).allow
        ((⟨1, Time.second⟩ : DistributedRateLimit).runKey ZKey.empty [0]).2 2000000000).1 =
      decide ((((admitted ((⟨1, Time.second⟩ : DistributedRateLimit).runKey ZKey.empty [0]).1).filter
        (Time.unixMilli 2000000000 - (⟨1, Time.second⟩ : DistributedRateLimit).windowMs * 1000 < ·)).length : Int) <
          (⟨1, Time.second⟩ : DistributedRateLimit).limit) :=
  ⟨by decide, admits_iff_fewer_after_span _ [0] 2000000000 (by decide)⟩

/-- One admitted call and a second one two windows later: `SlidingWindow` admits both, the
distributed limiter refuses the second. -/
theorem disagrees_with_sliding_window :
    ((⟨1, Time.second⟩ : DistributedRateLimit).runKey ZKey.empty [0, 2000000000]).1 =
        [(0, true), (2000, false)] ∧
      ((SlidingWindow.new 1 Time.second).runKey "k" [0, 2000000000]).1 =
        [(0, true), (2000000000, true)] := by
  decide

end DistributedRateLimit

/-- Runs of the script itself at the instants `ns` (ms) from the key `k`: each `now` with its
reply, and the key after the last run. -/
def scriptRun (window limit : Int) (k : ZKey) (ns : List Int) : List (Int × (Int × Int)) × ZKey :=
  ns.foldl (fun acc n => (acc.1 ++ [(n, (script window limit n acc.2).1)],
    (script window limit n acc.2).2)) ([], k)

/-- Three runs in one millisecond with a limit of two are all admitted: `ZADD` finds the member
`now` already there, so the cardinality stays one. -/
theorem same_millisecond_admits_three :
    (scriptRun 1000 2 ZKey.empty [1700000000000, 1700000000000, 1700000000000]).1 =
      [(1700000000000, (1, 1)), (1700000000000, (1, 0)), (1700000000000, (1, 0))] := by
  decide

end RateLimit
end ApiGateway
