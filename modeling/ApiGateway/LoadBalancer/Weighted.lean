import ApiGateway.LoadBalancer

/-!
# ApiGateway.LoadBalancer.Weighted

`WeightedRoundRobin.NextTarget` adds every weight to its current weight, selects the first
target of highest current weight and subtracts the total weight from it, all in Go `int`s.

Each call adds the total weight to the sum of the current weights and takes it away again, so
the sum keeps its value modulo `2^64`, and `AddTarget` adds a target of current weight zero; a
`RemoveTarget` takes the removed target's current weight out of the sum.

While no sum leaves Go's `int`, the current weights stay above minus the total weight `S`, and
the current weight of target `i` after `k` calls from construction is `k * w_i` modulo `S`. After
`S` calls they are all multiples of `S` above `-S` that sum to zero: all zero again. The balancer
is then back where it started, and every window of `S` calls returns each target as often as its
weight.

* `currentWeights_sum_emod`: from construction, along any calls but `RemoveTarget`, the current
  weights sum to zero modulo `2^64`.
* `smooth_window_counts`: when the number of targets times `S` is below `2^63`, every `S`
  consecutive calls return each URL as often as the weights of its targets add up to, and every
  multiple of `S` calls brings the balancer back to its state at construction.
* `overflow_never_returns_b`: with the weights `2^63 - 1, 2^63 - 1, 2`, whose sum wraps to `0`,
  the second target is never returned.
-/

namespace ApiGateway
namespace LoadBalancer

/-! ### Weights and current weights -/

/-- The sum of the weights of targets, in unbounded integers. -/
def weightSum (ts : List WeightedTarget) : Int := intSum (ts.map (·.weight))

@[simp] theorem weightSum_cons (t : WeightedTarget) (ts : List WeightedTarget) :
    weightSum (t :: ts) = t.weight + weightSum ts := rfl

/-- The sum of the current weights of targets, in unbounded integers. -/
def currentSum (ts : List WeightedTarget) : Int := intSum (ts.map (·.currentWeight))

/-- The sum of the weights of the targets of URL `u`. -/
def weightOf (u : String) (ts : List WeightedTarget) : Int :=
  intSum (ts.map fun t => if t.url = u then t.weight else 0)

/-- The sum of the current weights of the targets of URL `u`. -/
def currentOf (u : String) (ts : List WeightedTarget) : Int :=
  intSum (ts.map fun t => if t.url = u then t.currentWeight else 0)

/-- The sum of the current weights of a weighted round robin, zero for the other balancers. -/
def currentWeightSum : LoadBalancer → Int
  | .weightedRoundRobin ts => currentSum ts
  | _ => 0

/-! ### The sum of the current weights modulo `2^64` -/

theorem totalWeight_emod (ts : List WeightedTarget) :
    totalWeight ts % 2 ^ 64 = weightSum ts % 2 ^ 64 := by
  have h : ∀ a, ts.foldl (fun acc t => i64 (acc + t.weight)) a % 2 ^ 64 =
      (a + weightSum ts) % 2 ^ 64 := by
    induction ts with
    | nil => simp [weightSum]
    | cons t ts ih =>
      intro a
      have := i64_emod (a + t.weight)
      rw [List.foldl_cons, ih]
      simp only [weightSum, List.map_cons, intSum_cons] at this ⊢
      omega
  simpa [totalWeight] using h 0

theorem currentSum_bump_emod (ts : List WeightedTarget) :
    currentSum (bump ts) % 2 ^ 64 = (currentSum ts + weightSum ts) % 2 ^ 64 := by
  induction ts with
  | nil => rfl
  | cons t ts ih =>
    have := i64_emod (t.currentWeight + t.weight)
    simp only [bump, currentSum, weightSum, List.map_cons, List.map_map, intSum_cons] at ih this ⊢
    omega

/-- `NextTarget` keeps the sum of the current weights modulo `2^64`. -/
theorem currentWeightSum_nextTarget (d : Nat) (lb : LoadBalancer) :
    currentWeightSum (lb.nextTarget d).2 % 2 ^ 64 = currentWeightSum lb % 2 ^ 64 := by
  cases lb with
  | weightedRoundRobin ts =>
    simp only [nextTarget]
    split
    · rfl
    · rename_i hne
      have hspec := heaviest_spec (bump ts)
      cases hi : heaviest (bump ts) with
      | none => exact absurd (List.map_eq_nil_iff.mp (hspec.2.mp hi)) hne
      | some i =>
        have hlt := (hspec.1 i hi).lt
        have hmod := intSum_map_modify (·.currentWeight)
          (fun t => { t with currentWeight := i64 (t.currentWeight - totalWeight ts) }) _ i hlt
        have h₁ := currentSum_bump_emod ts
        have h₂ := i64_emod ((bump ts)[i].currentWeight - totalWeight ts)
        have h₃ := totalWeight_emod ts
        simp only [currentWeightSum, currentSum] at hmod h₁ ⊢
        omega
  | _ => simp only [nextTarget]; split <;> (try split) <;> rfl

/-- Every call but `RemoveTarget` keeps the sum of the current weights modulo `2^64`. -/
theorem currentWeightSum_call (lb : LoadBalancer) {c : Call} (hc : ∀ u, c ≠ .removeTarget u) :
    currentWeightSum (lb.call c) % 2 ^ 64 = currentWeightSum lb % 2 ^ 64 := by
  cases c with
  | nextTarget d => exact currentWeightSum_nextTarget d lb
  | removeTarget u => exact absurd rfl (hc u)
  | addTarget u =>
    cases lb <;> simp [call, addTarget, currentWeightSum, currentSum]
  | markHealthy u | markUnhealthy u | releaseConnection u =>
    cases lb <;> rfl

theorem currentWeightSum_run (lb : LoadBalancer) {calls : List Call}
    (hc : ∀ c ∈ calls, ∀ u, c ≠ .removeTarget u) :
    currentWeightSum (lb.run calls) % 2 ^ 64 = currentWeightSum lb % 2 ^ 64 := by
  induction calls generalizing lb with
  | nil => rfl
  | cons c calls ih =>
    simp only [List.mem_cons, forall_eq_or_imp] at hc
    exact (ih (lb.call c) hc.2).trans (currentWeightSum_call lb hc.1)

theorem currentSum_weightedTargets (targets : List String) (weights : List Int) :
    currentSum (weightedTargets targets weights) = 0 := by
  have h : ∀ x ∈ (weightedTargets targets weights).map (·.currentWeight), x = 0 := by
    simp only [weightedTargets, List.map_map, List.mem_map]
    rintro x ⟨⟨i, u⟩, -, rfl⟩
    rfl
  exact Int.le_antisymm (intSum_nonpos fun x hx => Int.le_of_eq (h x hx))
    (intSum_nonneg fun x hx => Int.le_of_eq (h x hx).symm)

/-- From `NewWeightedRoundRobin`, along any calls but `RemoveTarget`, the current weights sum to
zero modulo `2^64`: the sum as Go's `int` computes it is zero. -/
theorem currentWeights_sum_emod (targets : List String) (weights : List Int) {calls : List Call}
    (hc : ∀ c ∈ calls, ∀ u, c ≠ .removeTarget u) :
    currentWeightSum ((newWeightedRoundRobin targets weights).run calls) % 2 ^ 64 = 0 := by
  rw [currentWeightSum_run _ hc]
  simp [newWeightedRoundRobin, currentWeightSum, currentSum_weightedTargets]

theorem currentWeights_sum_emod_two :
    (∀ c ∈ [Call.nextTarget 0, .addTarget "c", .nextTarget 0], ∀ u, c ≠ .removeTarget u) ∧
      currentWeightSum ((newWeightedRoundRobin ["a", "b"] [3]).run
        [.nextTarget 0, .addTarget "c", .nextTarget 0]) % 2 ^ 64 = 0 :=
  ⟨by simp, currentWeights_sum_emod ["a", "b"] [3] (by simp)⟩

/-- After one call over two targets of weight one, removing the selected target leaves a current
weight sum of one; and with weights `2^63 - 1, 2^63 - 1, 2` the first call already takes the sum
of the current weights to `2^64`, the total weight wrapping to zero. -/
theorem remove_breaks_zero_sum :
    currentWeightSum ((newWeightedRoundRobin ["a", "b"] []).run [.nextTarget 0, .removeTarget "a"]) = 1 ∧
      currentWeightSum ((newWeightedRoundRobin ["a", "b", "c"] [2 ^ 63 - 1, 2 ^ 63 - 1, 2]).run
        [.nextTarget 0]) = 2 ^ 64 := by
  constructor <;> decide

/-! ### The smooth selection in unbounded integers -/

/-- The first loop of `NextTarget` in unbounded integers. -/
def bumpZ (ts : List WeightedTarget) : List WeightedTarget :=
  ts.map fun t => { t with currentWeight := t.currentWeight + t.weight }

/-- A call of `NextTarget` in unbounded integers that selects `i`: every weight is added to its
current weight, and `S` is taken from the current weight of `i`. -/
def smoothStep (S : Int) (i : Nat) (ts : List WeightedTarget) : List WeightedTarget :=
  (bumpZ ts).modify (fun t => { t with currentWeight := t.currentWeight - S }) i

/-- The URL and the weight of each target: what `NextTarget` never changes. -/
def layout (ts : List WeightedTarget) : List (String × Int) := ts.map fun t => (t.url, t.weight)

theorem layout_smoothStep (S : Int) (i : Nat) (ts : List WeightedTarget) :
    layout (smoothStep S i ts) = layout ts := by
  rw [layout, smoothStep, map_modify_of_comp (fun t : WeightedTarget => (t.url, t.weight))
    (fun t => { t with currentWeight := t.currentWeight - S }) (fun _ => rfl), bumpZ, List.map_map]
  rfl

theorem length_eq_of_layout {ts ts' : List WeightedTarget} (h : layout ts' = layout ts) :
    ts'.length = ts.length := by
  simpa [layout] using congrArg List.length h

theorem weightOf_of_layout {ts ts' : List WeightedTarget} (h : layout ts' = layout ts) (u : String) :
    weightOf u ts' = weightOf u ts := by
  have : ts'.map (fun t => if t.url = u then t.weight else 0) =
      ts.map (fun t => if t.url = u then t.weight else 0) := by
    have := congrArg (List.map fun p : String × Int => if p.1 = u then p.2 else 0) h
    simpa [layout, List.map_map] using this
  rw [weightOf, weightOf, this]

theorem getElem_smoothStep (S : Int) {i : Nat} (ts : List WeightedTarget) {j : Nat}
    (hj : j < ts.length) (hj' : j < (smoothStep S i ts).length) :
    (smoothStep S i ts)[j].currentWeight =
      ts[j].currentWeight + ts[j].weight - if i = j then S else 0 := by
  simp only [smoothStep, List.getElem_modify, bumpZ, List.getElem_map]
  split <;> simp

theorem currentSum_bumpZ (ts : List WeightedTarget) :
    currentSum (bumpZ ts) = currentSum ts + weightSum ts := by
  rw [currentSum, bumpZ, List.map_map]
  exact intSum_map_add (·.currentWeight) (·.weight) ts

theorem currentOf_smoothStep (S : Int) {i : Nat} {ts : List WeightedTarget} (hi : i < ts.length)
    (u : String) :
    currentOf u (smoothStep S i ts) =
      currentOf u ts + weightOf u ts - if ts[i].url = u then S else 0 := by
  have hbump : currentOf u (bumpZ ts) = currentOf u ts + weightOf u ts := by
    rw [currentOf, bumpZ, List.map_map, currentOf, weightOf, ← intSum_map_add]
    congr 1
    exact List.map_congr_left fun t _ => by simp only [Function.comp]; split <;> simp
  rw [currentOf, smoothStep, intSum_map_modify _ _ _ _ (by simpa [bumpZ] using hi), ← currentOf, hbump]
  simp only [bumpZ, List.getElem_map]
  split <;> omega

/-- A weighted round robin whose weights are positive and sum to `S`, whose current weights sum
to zero and stay above `-S`, and whose number of targets times `S` is below `2^63`. -/
structure Smooth (S : Int) (ts : List WeightedTarget) : Prop where
  ne : ts ≠ []
  weight_pos : ∀ t ∈ ts, 0 < t.weight
  weightSum_eq : weightSum ts = S
  currentSum_eq : currentSum ts = 0
  current_gt : ∀ t ∈ ts, -S < t.currentWeight
  bound : ts.length * S < 2 ^ 63

namespace Smooth

variable {S : Int} {ts : List WeightedTarget}

/-- In a smooth state every target's weight lies in `(0, S]`, its current weight is above `-S`,
and its current weight plus its weight is at most the number of targets times `S`, so below
`2^63`. -/
theorem bounds_of_mem (h : Smooth S ts) {t : WeightedTarget} (ht : t ∈ ts) :
    0 < S ∧ S < 2 ^ 63 ∧ 0 < t.weight ∧ t.weight ≤ S ∧ -S < t.currentWeight ∧
      t.currentWeight + t.weight < 2 ^ 63 := by
  obtain ⟨l₁, l₂, rfl⟩ := List.append_of_mem ht
  have hw := h.weightSum_eq
  have hc := h.currentSum_eq
  have hb := h.bound
  have hpos := h.weight_pos t ht
  have hgt := h.current_gt t ht
  have hw₁ := intSum_nonneg (l := l₁.map (·.weight)) (by
    simp only [List.mem_map]; rintro _ ⟨t', ht', rfl⟩; exact Int.le_of_lt (h.weight_pos t' (by simp [ht'])))
  have hw₂ := intSum_nonneg (l := l₂.map (·.weight)) (by
    simp only [List.mem_map]; rintro _ ⟨t', ht', rfl⟩; exact Int.le_of_lt (h.weight_pos t' (by simp [ht'])))
  have hc₁ := intSum_lower (l := l₁.map (·.currentWeight)) (c := S) (by
    simp only [List.mem_map]; rintro _ ⟨t', ht', rfl⟩; exact h.current_gt t' (by simp [ht']))
  have hc₂ := intSum_lower (l := l₂.map (·.currentWeight)) (c := S) (by
    simp only [List.mem_map]; rintro _ ⟨t', ht', rfl⟩; exact h.current_gt t' (by simp [ht']))
  simp only [weightSum, currentSum, List.map_append, List.map_cons, intSum_append, intSum_cons,
    List.length_map] at hw hc hc₁ hc₂
  have hS : 0 < S := by omega
  have hm₁ : 0 ≤ (l₁.length : Int) * S := Int.mul_nonneg (by omega) (by omega)
  have hm₂ : 0 ≤ (l₂.length : Int) * S := Int.mul_nonneg (by omega) (by omega)
  simp only [List.length_append, List.length_cons] at hb ⊢
  push_cast at hb ⊢
  rw [Int.add_mul, Int.add_mul, Int.one_mul] at hb
  omega

theorem weightSum_of_layout {ts' : List WeightedTarget} (hl : layout ts' = layout ts) :
    weightSum ts' = weightSum ts := by
  have := congrArg (List.map Prod.snd) hl
  simp only [layout, List.map_map] at this
  rw [weightSum, weightSum]
  exact congrArg intSum this

theorem totalWeight_eq (h : Smooth S ts) : totalWeight ts = S := by
  have hfold : ∀ (l : List WeightedTarget), (∀ t ∈ l, 0 < t.weight) → ∀ a, 0 ≤ a →
      a + weightSum l < 2 ^ 63 → l.foldl (fun acc t => i64 (acc + t.weight)) a = a + weightSum l := by
    intro l hl
    induction l with
    | nil => simp [weightSum]
    | cons t l ih =>
      intro a ha hlt
      simp only [List.mem_cons, forall_eq_or_imp] at hl
      have hnn : 0 ≤ weightSum l := intSum_nonneg (by
        simp only [List.mem_map]; rintro _ ⟨t', ht', rfl⟩; exact Int.le_of_lt (hl.2 t' ht'))
      rw [weightSum_cons] at hlt ⊢
      rw [List.foldl_cons, i64_of_range (by omega) (by omega), ih hl.2 _ (by omega) (by omega)]
      omega
  obtain ⟨t, ht⟩ := List.exists_mem_of_ne_nil ts h.ne
  have := h.bounds_of_mem ht
  rw [totalWeight, hfold ts h.weight_pos 0 (Int.le_refl 0) (by rw [h.weightSum_eq]; omega),
    h.weightSum_eq, Int.zero_add]

theorem bump_eq (h : Smooth S ts) : bump ts = bumpZ ts := by
  refine List.map_congr_left fun t ht => ?_
  have := h.bounds_of_mem ht
  rw [i64_of_range (by omega) (by omega)]

theorem length_bumpZ (ts : List WeightedTarget) : (bumpZ ts).length = ts.length := List.length_map _ _

/-- The target `NextTarget` selects has a positive current weight once the weights are added:
those current weights sum to `S`. -/
theorem heaviest_pos (h : Smooth S ts) {i : Nat} (hH : IsHeaviest (bumpZ ts) i) (hi : i < ts.length) :
    0 < ts[i].currentWeight + ts[i].weight := by
  have hsum : currentSum (bumpZ ts) = S := by
    rw [currentSum_bumpZ, h.currentSum_eq, h.weightSum_eq, Int.zero_add]
  have hS := (h.bounds_of_mem (List.getElem_mem hi)).1
  apply Int.lt_of_not_ge
  intro hle
  have : currentSum (bumpZ ts) ≤ 0 := intSum_nonpos fun x hx => by
    obtain ⟨j, hj, rfl⟩ := List.getElem_of_mem hx
    have hmax := hH.max j (by simpa using hj)
    simp only [bumpZ, List.getElem_map] at hmax ⊢
    omega
  omega

theorem modify_congr {α : Type} {f g : α → α} (l : List α) {i : Nat} (hi : i < l.length)
    (h : f l[i] = g l[i]) : l.modify f i = l.modify g i :=
  List.ext_getElem (by simp) fun j _ _ => by
    simp only [List.getElem_modify]
    split
    · subst_vars; exact h
    · rfl

/-- In a smooth state `NextTarget` is the smooth step in unbounded integers: it selects the first
target of highest current weight once the weights are added. -/
theorem nextTarget_eq (h : Smooth S ts) (d : Nat) :
    ∃ i, IsHeaviest (bumpZ ts) i ∧
      nextTarget d (.weightedRoundRobin ts) = ((ts[i]?).map (·.url), .weightedRoundRobin (smoothStep S i ts)) := by
  have hspec := heaviest_spec (bumpZ ts)
  obtain ⟨i, hi⟩ : ∃ i, heaviest (bumpZ ts) = some i :=
    Option.ne_none_iff_exists'.mp fun hn => h.ne (by simpa [bumpZ] using hspec.2.mp hn)
  have hH := hspec.1 i hi
  have hlt : i < ts.length := length_bumpZ ts ▸ hH.lt
  have hpos := h.heaviest_pos hH hlt
  have hbound := h.bounds_of_mem (List.getElem_mem hlt)
  refine ⟨i, hH, ?_⟩
  simp only [nextTarget, if_neg h.ne, h.bump_eq, hi, h.totalWeight_eq]
  refine Prod.ext (by simp only [bumpZ, List.getElem?_map, Option.map_map]; rfl) ?_
  show LoadBalancer.weightedRoundRobin _ = LoadBalancer.weightedRoundRobin _
  refine congrArg _ (modify_congr _ hH.lt ?_)
  simp only [bumpZ, List.getElem_map]
  rw [i64_of_range (by omega) (by omega)]

/-- The smooth step from a smooth state, selecting the first target of highest current weight,
leads to a smooth state. -/
theorem step (h : Smooth S ts) {i : Nat} (hH : IsHeaviest (bumpZ ts) i) :
    Smooth S (smoothStep S i ts) := by
  have hl := layout_smoothStep S i ts
  have hlen := length_eq_of_layout hl
  have hlt : i < ts.length := length_bumpZ ts ▸ hH.lt
  have hpos := h.heaviest_pos hH hlt
  refine ⟨fun he => h.ne (List.length_eq_zero.mp (hlen ▸ List.length_eq_zero.mpr he)), ?_, ?_, ?_, ?_, ?_⟩
  · intro t' ht'
    have hmem : (t'.url, t'.weight) ∈ layout ts := hl ▸ List.mem_map_of_mem _ ht'
    obtain ⟨t, ht, he⟩ := List.mem_map.mp hmem
    exact (Prod.mk.inj he).2 ▸ h.weight_pos t ht
  · rw [weightSum_of_layout hl, h.weightSum_eq]
  · rw [currentSum, smoothStep, intSum_map_modify _ _ _ _ hH.lt, ← currentSum, currentSum_bumpZ,
      h.currentSum_eq, h.weightSum_eq]
    simp only [bumpZ, List.getElem_map]
    omega
  · intro t' ht'
    obtain ⟨j, hj', rfl⟩ := List.getElem_of_mem ht'
    have hj : j < ts.length := hlen ▸ hj'
    rw [getElem_smoothStep S ts hj hj']
    have := h.current_gt _ (List.getElem_mem hj)
    have := h.weight_pos _ (List.getElem_mem hj)
    split
    · subst_vars; omega
    · omega
  · rw [hlen]; exact h.bound

/-- The state after `k` smooth steps from zero current weights: each current weight is `k` times
its weight modulo `S`. -/
def Phase (S : Int) (k : Nat) (ts : List WeightedTarget) : Prop :=
  ∀ t ∈ ts, S ∣ t.currentWeight - k * t.weight

theorem weight_getElem_smoothStep (S : Int) {i : Nat} (ts : List WeightedTarget) {j : Nat}
    (hj : j < ts.length) (hj' : j < (smoothStep S i ts).length) :
    (smoothStep S i ts)[j].weight = ts[j].weight := by
  simp only [smoothStep, List.getElem_modify, bumpZ, List.getElem_map]
  split <;> rfl

theorem phase_step {k : Nat} (hp : Phase S k ts) (i : Nat) : Phase S (k + 1) (smoothStep S i ts) := by
  intro t' ht'
  obtain ⟨j, hj', rfl⟩ := List.getElem_of_mem ht'
  have hj : j < ts.length := length_eq_of_layout (layout_smoothStep S i ts) ▸ hj'
  have e : ∀ x : Int, ts[j].currentWeight + ts[j].weight - x - ((k + 1 : Nat) : Int) * ts[j].weight =
      (ts[j].currentWeight - k * ts[j].weight) - x := fun x => by
    push_cast; rw [Int.add_mul, Int.one_mul]; omega
  rw [getElem_smoothStep S ts hj hj', weight_getElem_smoothStep S ts hj hj', e]
  exact Int.dvd_sub (hp _ (List.getElem_mem hj)) (by split; exacts [Int.dvd_refl S, Int.dvd_zero S])

/-- `k` smooth steps from a smooth state in phase `k₀`: the state stays smooth, reaches phase
`k₀ + k`, keeps its URLs and weights, and each URL's current weight grows by `k` times its weight
less `S` for each call that returned it. -/
theorem nextTargets_smooth {k : Nat} (h : Smooth S ts) (hp : Phase S k ts) (ds : List Nat) :
    ∃ ts', (nextTargets ds (.weightedRoundRobin ts)).2 = .weightedRoundRobin ts' ∧
      Smooth S ts' ∧ Phase S (k + ds.length) ts' ∧ layout ts' = layout ts ∧
      ∀ u, currentOf u ts' + S * ((nextTargets ds (.weightedRoundRobin ts)).1.count (some u) : Int) =
        currentOf u ts + ds.length * weightOf u ts := by
  induction ds generalizing ts k with
  | nil => exact ⟨ts, rfl, h, hp, rfl, fun u => by simp [nextTargets]⟩
  | cons d ds ih =>
    obtain ⟨i, hH, heq⟩ := h.nextTarget_eq d
    have hlt : i < ts.length := length_bumpZ ts ▸ hH.lt
    obtain ⟨ts', hrun, hs', hp', hl', hc'⟩ := ih (h.step hH) (phase_step hp i)
    refine ⟨ts', by rw [nextTargets_cons, heq]; exact hrun, hs', ?_, by rw [hl', layout_smoothStep], fun u => ?_⟩
    · rw [List.length_cons, ← Nat.add_assoc, Nat.add_right_comm]; exact hp'
    · have hu := hc' u
      rw [weightOf_of_layout (layout_smoothStep S i ts), currentOf_smoothStep S hlt] at hu
      rw [nextTargets_cons, heq, List.getElem?_eq_getElem hlt]
      simp only [Option.map_some', List.count_cons, beq_iff_eq, Option.some.injEq, List.length_cons]
      push_cast
      rw [Int.mul_add, Int.add_mul, Int.one_mul]
      by_cases hc : ts[i].url = u <;>
        simp only [hc, ↓reduceIte, Nat.cast_one, Nat.cast_zero, Int.mul_one, Int.mul_zero] at hu ⊢ <;>
        omega

end Smooth

/-- `NextTarget` of a weighted round robin does not read the draw. -/
theorem nextTargets_weightedRoundRobin_length (ts : List WeightedTarget) {ds ds' : List Nat}
    (h : ds.length = ds'.length) :
    nextTargets ds (.weightedRoundRobin ts) = nextTargets ds' (.weightedRoundRobin ts) := by
  induction ds generalizing ds' ts with
  | nil => rw [List.length_eq_zero.mp h.symm]
  | cons d ds ih =>
    obtain _ | ⟨d', ds'⟩ := ds'
    · exact absurd h (Nat.succ_ne_zero _)
    have hshape : ∃ ts', (nextTarget d (.weightedRoundRobin ts)).2 = .weightedRoundRobin ts' := by
      simp only [nextTarget]; split
      · exact ⟨_, rfl⟩
      · split <;> exact ⟨_, rfl⟩
    obtain ⟨ts', hts'⟩ := hshape
    rw [nextTargets_cons, nextTargets_cons, show nextTarget d' (.weightedRoundRobin ts) =
      nextTarget d (.weightedRoundRobin ts) from rfl, hts', ih ts' (Nat.succ.inj h)]


theorem eq_of_layout {ts ts' : List WeightedTarget} (hl : layout ts' = layout ts)
    (hz' : ∀ t ∈ ts', t.currentWeight = 0) (hz : ∀ t ∈ ts, t.currentWeight = 0) : ts' = ts :=
  List.ext_getElem (length_eq_of_layout hl) fun j h₁ h₂ => by
    have e := List.getElem_of_eq hl (by simpa [layout] using h₁)
    simp only [layout, List.getElem_map, Prod.mk.injEq] at e
    have c₁ := hz' _ (List.getElem_mem h₁)
    have c₂ := hz _ (List.getElem_mem h₂)
    generalize ts'[j] = a at *
    generalize ts[j] = b at *
    cases a; cases b
    dsimp only at *
    rw [e.1, e.2, c₁, c₂]

namespace Smooth

variable {S : Int} {ts₀ : List WeightedTarget}

theorem phase_zero (hz : ∀ t ∈ ts₀, t.currentWeight = 0) : Phase S 0 ts₀ := fun t ht => by
  rw [hz t ht]; simp

/-- After `S` smooth steps from zero current weights every current weight is zero again: each is
a multiple of `S` above `-S`, so nonnegative, and they sum to zero. -/
theorem currentWeight_eq_zero (h : Smooth S ts₀) (hp : Phase S S.toNat ts₀) :
    ∀ t ∈ ts₀, t.currentWeight = 0 := by
  obtain ⟨t₀, ht₀⟩ := List.exists_mem_of_ne_nil ts₀ h.ne
  have hS := (h.bounds_of_mem ht₀).1
  have hnn : ∀ t ∈ ts₀, 0 ≤ t.currentWeight := fun t ht => by
    have h₁ := hp t ht
    rw [Int.toNat_of_nonneg (Int.le_of_lt hS)] at h₁
    obtain ⟨c, hc⟩ := Int.sub_add_cancel t.currentWeight (S * t.weight) ▸
      Int.dvd_add h₁ (Int.dvd_mul_right S t.weight)
    have hgt := h.current_gt t ht
    rw [hc] at hgt ⊢
    have : -1 < c := Int.lt_of_mul_lt_mul_left (by rw [Int.mul_neg, Int.mul_one]; exact hgt)
      (Int.le_of_lt hS)
    exact Int.mul_nonneg (Int.le_of_lt hS) (by omega)
  intro t ht
  exact eq_zero_of_intSum (by simpa using hnn) h.currentSum_eq _ (List.mem_map_of_mem _ ht)

/-- From a smooth state with zero current weights, every multiple of `S` calls of `NextTarget`
leads back to it. -/
theorem nextTargets_period (h₀ : Smooth S ts₀) (hz : ∀ t ∈ ts₀, t.currentWeight = 0)
    {ds : List Nat} (hd : S.toNat ∣ ds.length) :
    (nextTargets ds (.weightedRoundRobin ts₀)).2 = .weightedRoundRobin ts₀ := by
  have hone : ∀ ds : List Nat, ds.length = S.toNat →
      (nextTargets ds (.weightedRoundRobin ts₀)).2 = .weightedRoundRobin ts₀ := fun ds hd => by
    obtain ⟨ts', hrun, hs', hp', hl', -⟩ := nextTargets_smooth h₀ (phase_zero hz) ds
    rw [Nat.zero_add, hd] at hp'
    rw [hrun, eq_of_layout hl' (hs'.currentWeight_eq_zero hp') hz]
  obtain ⟨q, hq⟩ := hd
  induction q generalizing ds with
  | zero => rw [show ds = [] from List.length_eq_zero.mp (by simpa using hq)]; rfl
  | succ q ih =>
    rw [← List.take_append_drop S.toNat ds, nextTargets_append,
      hone _ (by simp only [List.length_take]; rw [hq]; exact Nat.min_eq_left (Nat.le_mul_of_pos_right _ (Nat.succ_pos q))),
      ih (by simp only [List.length_drop, hq, Nat.mul_succ, Nat.add_sub_cancel])]

/-- From a smooth state with zero current weights, any `S` consecutive calls of `NextTarget`
return each URL as many times as the weights of its targets add up to. -/
theorem window_count (h₀ : Smooth S ts₀) (hz : ∀ t ∈ ts₀, t.currentWeight = 0)
    (as ws : List Nat) (hw : ws.length = S.toNat) (u : String) :
    ((nextTargets ws (nextTargets as (.weightedRoundRobin ts₀)).2).1.count (some u) : Int) =
      weightOf u ts₀ := by
  obtain ⟨t₀, ht₀⟩ := List.exists_mem_of_ne_nil ts₀ h₀.ne
  have hS := (h₀.bounds_of_mem ht₀).1
  obtain ⟨tsa, hrun, hsa, hpa, hla, -⟩ := nextTargets_smooth h₀ (phase_zero hz) as
  obtain ⟨tsb, hrun', -, -, -, hc⟩ := nextTargets_smooth hsa hpa ws
  have hback : tsb = tsa := by
    have hp : (nextTargets ws (.weightedRoundRobin ts₀)).2 = .weightedRoundRobin ts₀ :=
      nextTargets_period h₀ hz (hw ▸ Nat.dvd_refl _)
    have e : (nextTargets (as ++ ws) (.weightedRoundRobin ts₀)).2 =
        (nextTargets (ws ++ as) (.weightedRoundRobin ts₀)).2 := by
      rw [@nextTargets_weightedRoundRobin_length ts₀ (as ++ ws) (ws ++ as) (by simp [Nat.add_comm])]
    rw [nextTargets_append, nextTargets_append, hrun, hrun', hp, hrun] at e
    exact LoadBalancer.weightedRoundRobin.inj e
  have hcu := hc u
  rw [hback, hw, Int.toNat_of_nonneg (Int.le_of_lt hS), weightOf_of_layout hla] at hcu
  rw [hrun]
  exact Int.eq_of_mul_eq_mul_left (Int.ne_of_gt hS) (by omega)

end Smooth

theorem weightSum_pos {ts : List WeightedTarget} (hne : ts ≠ []) (hw : ∀ t ∈ ts, 0 < t.weight) :
    0 < weightSum ts := by
  obtain _ | ⟨t, ts⟩ := ts
  · exact absurd rfl hne
  have hnn := intSum_nonneg (l := ts.map (·.weight)) (by
    simp only [List.mem_map]; rintro _ ⟨t', ht', rfl⟩; exact Int.le_of_lt (hw t' (.tail _ ht')))
  rw [weightSum_cons]
  have := hw t (.head _)
  exact Int.add_pos_of_pos_of_nonneg this hnn

@[simp] theorem length_weightedTargets (targets : List String) (weights : List Int) :
    (weightedTargets targets weights).length = targets.length := by
  simp [weightedTargets]

theorem currentWeight_weightedTargets (targets : List String) (weights : List Int) :
    ∀ t ∈ weightedTargets targets weights, t.currentWeight = 0 := by
  simp only [weightedTargets, List.mem_map]
  rintro t ⟨⟨i, u⟩, -, rfl⟩
  rfl

/-- `NewWeightedRoundRobin` builds a smooth state when its number of targets times the sum of its
weights is below `2^63`. -/
theorem smooth_weightedTargets {targets : List String} (weights : List Int) (hne : targets ≠ [])
    (hb : targets.length * weightSum (weightedTargets targets weights) < 2 ^ 63) :
    Smooth (weightSum (weightedTargets targets weights)) (weightedTargets targets weights) := by
  have hne' : weightedTargets targets weights ≠ [] := fun he =>
    hne (List.length_eq_zero.mp (by rw [← length_weightedTargets targets weights, he]; rfl))
  have hw : ∀ t ∈ weightedTargets targets weights, 0 < t.weight := by
    simp only [weightedTargets, List.mem_map]
    rintro t ⟨⟨i, u⟩, -, rfl⟩
    dsimp only
    split
    · split <;> omega
    · decide
  have hS := weightSum_pos hne' hw
  refine ⟨hne', hw, rfl, currentSum_weightedTargets targets weights, fun t ht => ?_, by simpa using hb⟩
  rw [currentWeight_weightedTargets targets weights t ht]
  omega

/-- From `NewWeightedRoundRobin` over `n ≥ 1` targets whose weights sum to `S`, with `n * S` below
`2^63`: every `S` consecutive calls of `NextTarget` return each URL as many times as the weights
of its targets add up to, and after every multiple of `S` calls the balancer is back at its start,
every current weight `0`. -/
theorem smooth_window_counts {targets : List String} (weights : List Int) (hne : targets ≠ [])
    (hb : targets.length * weightSum (weightedTargets targets weights) < 2 ^ 63) (ds : List Nat) :
    (∀ m, m + (weightSum (weightedTargets targets weights)).toNat ≤ ds.length → ∀ u,
      ((((nextTargets ds (newWeightedRoundRobin targets weights)).1.drop m).take
        (weightSum (weightedTargets targets weights)).toNat).count (some u) : Int) =
          weightOf u (weightedTargets targets weights)) ∧
    ((weightSum (weightedTargets targets weights)).toNat ∣ ds.length →
      (nextTargets ds (newWeightedRoundRobin targets weights)).2 = newWeightedRoundRobin targets weights) := by
  have h₀ := smooth_weightedTargets weights hne hb
  have hz := currentWeight_weightedTargets targets weights
  refine ⟨fun m hm u => ?_, h₀.nextTargets_period hz⟩
  rw [← List.take_append_drop m ds, ← List.take_append_drop (weightSum (weightedTargets targets weights)).toNat
    (ds.drop m), newWeightedRoundRobin, nextTargets_append, nextTargets_append,
    List.drop_left' (by simp only [length_nextTargets, List.length_take]; omega),
    List.take_left' (by simp only [length_nextTargets, List.length_take, List.length_drop]; omega)]
  exact h₀.window_count hz _ _ (by simp only [List.length_take, List.length_drop]; omega) u

theorem smooth_window_counts_two_one :
    ["a", "b"] ≠ [] ∧ ["a", "b"].length * weightSum (weightedTargets ["a", "b"] [2, 1]) < 2 ^ 63 ∧
      ((∀ m, m + (weightSum (weightedTargets ["a", "b"] [2, 1])).toNat ≤ [0, 0, 0, 0, 0, 0].length →
        ∀ u, ((((nextTargets [0, 0, 0, 0, 0, 0] (newWeightedRoundRobin ["a", "b"] [2, 1])).1.drop m).take
          (weightSum (weightedTargets ["a", "b"] [2, 1])).toNat).count (some u) : Int) =
            weightOf u (weightedTargets ["a", "b"] [2, 1])) ∧
      ((weightSum (weightedTargets ["a", "b"] [2, 1])).toNat ∣ [0, 0, 0, 0, 0, 0].length →
        (nextTargets [0, 0, 0, 0, 0, 0] (newWeightedRoundRobin ["a", "b"] [2, 1])).2 =
          newWeightedRoundRobin ["a", "b"] [2, 1])) :=
  ⟨by decide, by decide, smooth_window_counts [2, 1] (by decide) (by decide) _⟩

/-! ### Weights whose sum overflows -/

theorem i64_i64 (n : Int) : i64 (i64 n) = i64 n :=
  i64_of_range (by unfold i64; omega) (by unfold i64; omega)

/-- The targets `a, b, c` with the weights `2^63 - 1, 2^63 - 1, 2`, whose sum `2^64` wraps to `0`,
with `a` and `b` at the same current weight. -/
def overflowTargets (x y : Int) : List WeightedTarget :=
  [⟨"a", 2 ^ 63 - 1, x⟩, ⟨"b", 2 ^ 63 - 1, x⟩, ⟨"c", 2, y⟩]

/-- `NextTarget` over the overflowing weights takes nothing from the target it selects, and never
selects `b`, which always ties with `a` before it. -/
theorem nextTarget_overflowTargets (d : Nat) (x y : Int) :
    ∃ o, o ≠ some "b" ∧ nextTarget d (.weightedRoundRobin (overflowTargets x y)) =
      (o, .weightedRoundRobin (overflowTargets (i64 (x + (2 ^ 63 - 1))) (i64 (y + 2)))) := by
  have hb : bump (overflowTargets x y) = overflowTargets (i64 (x + (2 ^ 63 - 1))) (i64 (y + 2)) := rfl
  have htotal : totalWeight (overflowTargets x y) = 0 := rfl
  obtain ⟨i, hi⟩ : ∃ i, heaviest (bump (overflowTargets x y)) = some i :=
    Option.ne_none_iff_exists'.mp fun hn => List.cons_ne_nil _ _ ((heaviest_spec _).2.mp hn)
  have hH := (heaviest_spec _).1 i hi
  rw [hb] at hH
  have hi3 : i < 3 := hH.lt
  have hi1 : i ≠ 1 := by rintro rfl; exact Int.lt_irrefl _ (hH.first 0 (by decide))
  simp only [nextTarget, if_neg (List.cons_ne_nil _ _ : overflowTargets x y ≠ [])]
  rw [hi, hb, htotal]
  obtain rfl | rfl : i = 0 ∨ i = 2 := by omega
  · exact ⟨some "a", by decide, by simp [overflowTargets, i64_i64]⟩
  · exact ⟨some "c", by decide, by simp [overflowTargets, i64_i64]⟩

theorem nextTargets_overflowTargets (ds : List Nat) (x y : Int) :
    some "b" ∉ (nextTargets ds (.weightedRoundRobin (overflowTargets x y))).1 := by
  induction ds generalizing x y with
  | nil => exact List.not_mem_nil _
  | cons d ds ih =>
    obtain ⟨o, ho, heq⟩ := nextTarget_overflowTargets d x y
    rw [nextTargets_cons, heq, List.mem_cons, not_or]
    exact ⟨Ne.symm ho, ih _ _⟩

/-- With the weights `2^63 - 1, 2^63 - 1, 2`, of sum `2^64`, `NextTarget` never returns `b`. -/
theorem overflow_never_returns_b :
    weightSum (weightedTargets ["a", "b", "c"] [2 ^ 63 - 1, 2 ^ 63 - 1, 2]) = 2 ^ 64 ∧
      ∀ ds, some "b" ∉
        (nextTargets ds (newWeightedRoundRobin ["a", "b", "c"] [2 ^ 63 - 1, 2 ^ 63 - 1, 2])).1 :=
  ⟨by decide, fun ds => by
    rw [show newWeightedRoundRobin ["a", "b", "c"] [2 ^ 63 - 1, 2 ^ 63 - 1, 2] =
      .weightedRoundRobin (overflowTargets 0 0) by decide]
    exact nextTargets_overflowTargets ds 0 0⟩

end LoadBalancer
end ApiGateway
