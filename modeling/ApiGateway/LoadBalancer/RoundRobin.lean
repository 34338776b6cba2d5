import ApiGateway.LoadBalancer

/-!
# ApiGateway.LoadBalancer.RoundRobin

`RoundRobin.NextTarget` over a fixed list of `n` targets: the call that makes the `uint64`
counter `c` returns the target at `c mod n`. The counter wraps from `2^64 - 1` to `0`, so the
targets follow each other in turn as long as the counter does not wrap, and across the wrap too
when `n` divides `2^64`. When `n` does not divide `2^64`, the calls around the wrap repeat a
target and skip another.

* `nextTargets_roundRobin`: the targets the calls return, and the counter after them.
* `roundRobin_window_counts`: `k * n` consecutive calls from a counter `c` return each target `k`
  times, when `n` divides `2^64` or the calls do not pass the wrap.
* `roundRobin_wrap_repeats`: over `a, b, c`, the three calls after the first `2^64 - 2` return
  `a, a, b`.
-/

namespace ApiGateway
namespace LoadBalancer

/-- The targets `NextTarget` returns over `ts` from the counter `c`, and the counter after the
calls. -/
theorem nextTargets_roundRobin {ts : List String} (hts : ts ≠ []) (ds : List Nat) {c : Nat}
    (hc : c < 2 ^ 64) :
    nextTargets ds (.roundRobin ts c) =
      ((List.range ds.length).map fun j => ts[(c + j + 1) % 2 ^ 64 % ts.length]?,
        .roundRobin ts ((c + ds.length) % 2 ^ 64)) := by
  induction ds generalizing c with
  | nil => rw [List.length_nil, Nat.add_zero, Nat.mod_eq_of_lt hc]; rfl
  | cons d ds ih =>
    rw [nextTargets_cons]
    simp only [nextTarget, hts, ↓reduceIte]
    rw [ih (Nat.mod_lt _ (Nat.two_pow_pos 64)), List.length_cons, List.range_succ_eq_map,
      List.map_cons, List.map_map]
    refine Prod.ext (List.cons_eq_cons.mpr ⟨rfl, List.map_congr_left fun j _ => ?_⟩) ?_
    · simp only [Function.comp, Nat.succ_eq_add_one]
      congr 2
      omega
    · show LoadBalancer.roundRobin ts _ = LoadBalancer.roundRobin ts _
      congr 1
      omega

theorem count_map_some (l : List String) (u : String) : (l.map some).count (some u) = l.count u := by
  induction l with
  | nil => rfl
  | cons t l ih => simp [List.count_cons, ih]

/-- Over `n` targets, `k * n` consecutive calls of `NextTarget` from a reachable counter `c`
return each target `k` times as often as it is listed, when `n` divides `2^64` or the calls do
not pass the wrap of the counter. -/
theorem roundRobin_window_counts {ts : List String} (hts : ts ≠ []) {c k : Nat} (hc : c < 2 ^ 64)
    (hwrap : 2 ^ 64 % ts.length = 0 ∨ c + k * ts.length < 2 ^ 64) (ds : List Nat)
    (hd : ds.length = k * ts.length) (u : String) :
    (nextTargets ds (.roundRobin ts c)).1.count (some u) = k * ts.count u := by
  have hn : 0 < ts.length := List.length_pos.mpr hts
  have hout : (List.range ds.length).map (fun j => ts[(c + j + 1) % 2 ^ 64 % ts.length]?) =
      (List.range (k * ts.length)).map (fun j => (fun i => ts[i % ts.length]?) (c + 1 + j)) := by
    rw [hd]
    refine List.map_congr_left fun j hj => ?_
    rw [show c + 1 + j = c + j + 1 by omega]
    rcases hwrap with hdvd | hlt
    · rw [Nat.mod_mod_of_dvd _ (Nat.dvd_of_mod_eq_zero hdvd)]
    · have hj' : j < k * ts.length := List.mem_range.mp hj
      rw [Nat.mod_eq_of_lt (show c + j + 1 < 2 ^ 64 by omega)]
  have hper : ∀ j, (fun i => ts[i % ts.length]?) (j + ts.length) = (fun i => ts[i % ts.length]?) j :=
    fun j => by simp
  have hbase : (List.range ts.length).map (fun i => ts[i % ts.length]?) = ts.map some :=
    List.ext_getElem (by simp) fun i h₁ _ => by simp [Nat.mod_eq_of_lt (by simpa using h₁)]
  rw [nextTargets_roundRobin hts ds hc]
  dsimp only
  have hcount := @count_window_mul _ _ (fun i => ts[i % ts.length]?) _ hper (some u) (c + 1) k
  rw [hbase, count_map_some] at hcount
  rw [hout]
  exact hcount

theorem roundRobin_window_counts_twice :
    ["a", "b", "c"] ≠ [] ∧ 0 < 2 ^ 64 ∧ 0 + 2 * 3 < 2 ^ 64 ∧ [0, 0, 0, 0, 0, 0].length = 2 * 3 ∧
      (nextTargets [0, 0, 0, 0, 0, 0] (.roundRobin ["a", "b", "c"] 0)).1.count (some "a") =
        2 * ["a", "b", "c"].count "a" :=
  ⟨by decide, by decide, by decide, rfl,
    roundRobin_window_counts (by decide) (by decide) (.inr (by decide)) _ rfl "a"⟩

/-- Over the targets `a, b, c`, after the first `2^64 - 2` calls of `NextTarget` from
`NewRoundRobin`, the next three calls return `a, a, b`: the counter passes from `2^64 - 1` to `0`,
and `2^64 - 1` and `0` both pick `a`. -/
theorem roundRobin_wrap_repeats :
    (nextTargets (List.replicate (2 ^ 64 - 2) 0) (newRoundRobin ["a", "b", "c"])).2 =
        .roundRobin ["a", "b", "c"] (2 ^ 64 - 2) ∧
      (nextTargets [0, 0, 0] (.roundRobin ["a", "b", "c"] (2 ^ 64 - 2))).1 =
        [some "a", some "a", some "b"] := by
  refine ⟨?_, by decide⟩
  rw [newRoundRobin, nextTargets_roundRobin (by decide) _ (by decide), List.length_replicate]
  rfl

end LoadBalancer
end ApiGateway
