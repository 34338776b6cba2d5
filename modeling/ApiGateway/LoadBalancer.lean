import Mathlib.Algebra.Group.Int
import Mathlib.Algebra.Group.Nat.Basic
import Mathlib.Data.List.Basic

/-!
# ApiGateway.LoadBalancer

The four load balancers of `pkg/loadbalancer` (in `src/Makefile`), over targets named by the
text of their URL: the code compares targets by `String()`.

`RoundRobin` keeps a `uint64` counter that `NextTarget` increments before it picks. The random
balancer draws its index from `rand.Intn`, a source this model does not contain: the draw is an
input. `WeightedRoundRobin` is the smooth weighted round robin over Go `int`s, which are 64 bits
and wrap: `i64` is the value a sum wraps to. `LeastConnections` counts the connections it hands
out and skips the targets marked unhealthy; its counters are `int64`s that `atomic.AddInt64`
increments, so they wrap as well.

A `Call` is one method call on a balancer, and `run` makes a list of them in turn.

* `heaviest_spec`: `WeightedRoundRobin.NextTarget` picks the first target of highest current
  weight.
* `leastLoaded_spec`: `LeastConnections.NextTarget` picks the first healthy target of fewest
  connections, and picks none only when no target is healthy.
-/

namespace ApiGateway
namespace LoadBalancer

/-- The value of Go's `int` (64 bits) that the integer `n` wraps to. -/
def i64 (n : Int) : Int := (n + 2 ^ 63) % 2 ^ 64 - 2 ^ 63

theorem i64_of_range {n : Int} (h₁ : -2 ^ 63 ≤ n) (h₂ : n < 2 ^ 63) : i64 n = n := by
  unfold i64
  rw [Int.emod_eq_of_lt (by omega) (by omega)]
  omega

theorem i64_emod (n : Int) : i64 n % 2 ^ 64 = n % 2 ^ 64 := by
  unfold i64
  omega

/-- `WeightedTarget`: an endpoint with its static weight and its current-weight scratch. -/
structure WeightedTarget where
  url : String
  weight : Int
  currentWeight : Int
  deriving DecidableEq, Repr

/-- `ConnectionTarget`: an endpoint with its active-connection count and its health flag. -/
structure ConnectionTarget where
  url : String
  connections : Int
  healthy : Bool
  deriving DecidableEq, Repr

end LoadBalancer

open LoadBalancer in
/-- A value of the `LoadBalancer` interface of `pkg/loadbalancer`, one of its four policies. -/
inductive LoadBalancer where
  | roundRobin (targets : List String) (current : Nat)
  | weightedRoundRobin (targets : List WeightedTarget)
  | random (targets : List String)
  | leastConnections (targets : List ConnectionTarget)
  deriving DecidableEq, Repr

namespace LoadBalancer

/-- `NewRoundRobin(targets)`. -/
def newRoundRobin (targets : List String) : LoadBalancer := .roundRobin targets 0

/-- The targets `NewWeightedRoundRobin(targets, weights)` builds; a missing or non-positive
weight is `1`. -/
def weightedTargets (targets : List String) (weights : List Int) : List WeightedTarget :=
  targets.enum.map fun (i, url) =>
    ⟨url, match weights[i]? with
      | some w => if 0 < w then w else 1
      | none => 1, 0⟩

/-- `NewWeightedRoundRobin(targets, weights)`. -/
def newWeightedRoundRobin (targets : List String) (weights : List Int) : LoadBalancer :=
  .weightedRoundRobin (weightedTargets targets weights)

/-- `NewRandom(targets)`. -/
def newRandom (targets : List String) : LoadBalancer := .random targets

/-- `NewLeastConnections(targets)`, every target healthy. -/
def newLeastConnections (targets : List String) : LoadBalancer :=
  .leastConnections (targets.map fun url => ⟨url, 0, true⟩)

/-- One turn of the loop of `WeightedRoundRobin.NextTarget` that finds the selected target: the
index and current weight selected so far, replaced by a target of strictly higher weight. -/
def heavier (sel : Option (Nat × Int)) (p : Nat × WeightedTarget) : Option (Nat × Int) :=
  match sel with
  | none => some (p.1, p.2.currentWeight)
  | some s => if s.2 < p.2.currentWeight then some (p.1, p.2.currentWeight) else sel

/-- The index the loop of `WeightedRoundRobin.NextTarget` selects. -/
def heaviest (ts : List WeightedTarget) : Option Nat := (ts.enum.foldl heavier none).map (·.1)

/-- One turn of the loop of `LeastConnections.NextTarget`: unhealthy targets are skipped, and a
healthy one replaces the selection when it has strictly fewer connections. -/
def lighter (sel : Option (Nat × Int)) (p : Nat × ConnectionTarget) : Option (Nat × Int) :=
  if !p.2.healthy then sel
  else
    match sel with
    | none => some (p.1, p.2.connections)
    | some s => if p.2.connections < s.2 then some (p.1, p.2.connections) else sel

/-- The index the loop of `LeastConnections.NextTarget` selects. -/
def leastLoaded (ts : List ConnectionTarget) : Option Nat := (ts.enum.foldl lighter none).map (·.1)

/-- The total the loop of `WeightedRoundRobin.NextTarget` adds up, in Go's `int`. -/
def totalWeight (ts : List WeightedTarget) : Int := ts.foldl (fun acc t => i64 (acc + t.weight)) 0

/-- The first loop of `WeightedRoundRobin.NextTarget`: every current weight grows by the weight. -/
def bump (ts : List WeightedTarget) : List WeightedTarget :=
  ts.map fun t => { t with currentWeight := i64 (t.currentWeight + t.weight) }

/-- `NextTarget()`, with `draw` the draw of the random source: the target, none for `nil`, and
the balancer after it. -/
def nextTarget (draw : Nat) : LoadBalancer → Option String × LoadBalancer
  | .roundRobin ts current =>
    if ts = [] then (none, .roundRobin ts current)
    else
      let current := (current + 1) % 2 ^ 64
      (ts[current % ts.length]?, .roundRobin ts current)
  | .weightedRoundRobin ts =>
    if ts = [] then (none, .weightedRoundRobin ts)
    else
      match heaviest (bump ts) with
      | some i =>
        (((bump ts)[i]?).map (·.url), .weightedRoundRobin ((bump ts).modify
          (fun t => { t with currentWeight := i64 (t.currentWeight - totalWeight ts) }) i))
      | none => (none, .weightedRoundRobin (bump ts))
  | .random ts => if ts = [] then (none, .random ts) else (ts[draw % ts.length]?, .random ts)
  | .leastConnections ts =>
    if ts = [] then (none, .leastConnections ts)
    else
      match leastLoaded ts with
      | some i =>
        ((ts[i]?).map (·.url), .leastConnections
          (ts.modify (fun t => { t with connections := i64 (t.connections + 1) }) i))
      | none => (none, .leastConnections ts)

/-- The first element of `l` satisfying `p`, changed by `f`: the loops that stop at the first
target of a URL. -/
def updateFirst {α : Type} (p : α → Bool) (f : α → α) : List α → List α
  | [] => []
  | a :: l => if p a then f a :: l else a :: updateFirst p f l

/-- `MarkUnhealthy(target)`, of the balancers that are a `HealthChecker`. -/
def markUnhealthy (target : String) : LoadBalancer → LoadBalancer
  | .leastConnections ts =>
    .leastConnections (updateFirst (·.url = target) (fun t => { t with healthy := false }) ts)
  | lb => lb

/-- `MarkHealthy(target)`. -/
def markHealthy (target : String) : LoadBalancer → LoadBalancer
  | .leastConnections ts =>
    .leastConnections (updateFirst (·.url = target) (fun t => { t with healthy := true }) ts)
  | lb => lb

/-- `LeastConnections.ReleaseConnection(target)`. -/
def releaseConnection (target : String) : LoadBalancer → LoadBalancer
  | .leastConnections ts =>
    .leastConnections (updateFirst (·.url = target)
      (fun t => if 0 < t.connections then { t with connections := t.connections - 1 } else t) ts)
  | lb => lb

/-- `GetTargets()`. -/
def getTargets : LoadBalancer → List String
  | .roundRobin ts _ => ts
  | .weightedRoundRobin ts => ts.map (·.url)
  | .random ts => ts
  | .leastConnections ts => ts.map (·.url)

/-- The list with its first element satisfying `p` removed: the loops of `RemoveTarget`. -/
def removeFirst {α : Type} (p : α → Bool) : List α → List α
  | [] => []
  | a :: l => if p a then l else a :: removeFirst p l

/-- `AddTarget(target)`. -/
def addTarget (target : String) : LoadBalancer → LoadBalancer
  | .roundRobin ts current => .roundRobin (ts ++ [target]) current
  | .weightedRoundRobin ts => .weightedRoundRobin (ts ++ [⟨target, 1, 0⟩])
  | .random ts => .random (ts ++ [target])
  | .leastConnections ts => .leastConnections (ts ++ [⟨target, 0, true⟩])

/-- `RemoveTarget(target)`. -/
def removeTarget (target : String) : LoadBalancer → LoadBalancer
  | .roundRobin ts current => .roundRobin (removeFirst (· = target) ts) current
  | .weightedRoundRobin ts => .weightedRoundRobin (removeFirst (·.url = target) ts)
  | .random ts => .random (removeFirst (· = target) ts)
  | .leastConnections ts => .leastConnections (removeFirst (·.url = target) ts)

/-- `LeastConnections.IsHealthy(target)`. -/
def isHealthy (target : String) : LoadBalancer → Bool
  | .leastConnections ts => ((ts.find? (·.url = target)).map (·.healthy)).getD false
  | _ => false

/-- `NextTarget()` once for each draw of `draws`, in turn: the targets and the balancer after
the last call. -/
def nextTargets : List Nat → LoadBalancer → List (Option String) × LoadBalancer
  | [], lb => ([], lb)
  | d :: ds, lb =>
    match lb.nextTarget d with
    | (t, lb) => match nextTargets ds lb with
      | (out, lb) => (t :: out, lb)

/-- A method call on a balancer. -/
inductive Call where
  | nextTarget (draw : Nat)
  | addTarget (target : String)
  | removeTarget (target : String)
  | markHealthy (target : String)
  | markUnhealthy (target : String)
  | releaseConnection (target : String)
  deriving DecidableEq, Repr

/-- The balancer after a call. -/
def call (lb : LoadBalancer) : Call → LoadBalancer
  | .nextTarget d => (lb.nextTarget d).2
  | .addTarget u => lb.addTarget u
  | .removeTarget u => lb.removeTarget u
  | .markHealthy u => lb.markHealthy u
  | .markUnhealthy u => lb.markUnhealthy u
  | .releaseConnection u => lb.releaseConnection u

/-- The balancer after each call of `calls` in turn. -/
def run (lb : LoadBalancer) (calls : List Call) : LoadBalancer := calls.foldl call lb

theorem map_modify_of_comp {α β : Type} (g : α → β) (f : α → α) (hf : ∀ a, g (f a) = g a) :
    ∀ (i : Nat) (l : List α), (l.modify f i).map g = l.map g
  | _, [] => by simp
  | 0, a :: l => by simp [hf]
  | i + 1, a :: l => by simp [map_modify_of_comp g f hf i l]

/-! ### The selection loops -/

theorem enum_snoc {α : Type} (l : List α) (a : α) : (l ++ [a]).enum = l.enum ++ [(l.length, a)] := by
  simp [List.enum_append]

/-- What the loop of `WeightedRoundRobin.NextTarget` selects: the index of the first target of
highest current weight. -/
structure IsHeaviest (ts : List WeightedTarget) (i : Nat) : Prop where
  lt : i < ts.length
  max : ∀ j (hj : j < ts.length), ts[j].currentWeight ≤ ts[i].currentWeight
  first : ∀ j (hj : j < i), ts[j].currentWeight < ts[i].currentWeight

theorem heavier_foldl (ts : List WeightedTarget) :
    match ts.enum.foldl heavier none with
    | none => ts = []
    | some (i, c) => ∃ hi : i < ts.length, IsHeaviest ts i ∧ ts[i].currentWeight = c := by
  induction ts using List.reverseRecOn with
  | nil => rfl
  | append_singleton ts t ih =>
    rw [enum_snoc, List.foldl_append, List.foldl_cons, List.foldl_nil]
    have hget : ∀ j (hj : j < ts.length) (_ : j < (ts ++ [t]).length), (ts ++ [t])[j] = ts[j] :=
      fun _ hj _ => List.getElem_append_left hj
    have hlast : ∀ _ : ts.length < (ts ++ [t]).length, (ts ++ [t])[ts.length] = t := fun _ => by simp
    revert ih
    cases ts.enum.foldl heavier none with
    | none =>
      rintro rfl
      exact ⟨by simp, ⟨by simp, fun j hj => by simp at hj; subst hj; exact Int.le_refl _, fun j hj => by simp at hj⟩,
        rfl⟩
    | some s =>
      obtain ⟨i, c⟩ := s
      rintro ⟨hi, ⟨hi', hmax, hfirst⟩, rfl⟩
      by_cases hlt : ts[i].currentWeight < t.currentWeight
      · simp only [heavier, hlt, ↓reduceIte]
        refine ⟨by simp, ⟨by simp, fun j hj => ?_, fun j hj => ?_⟩, by rw [hlast]⟩ <;> rw [hlast]
        · rcases Nat.lt_succ_iff_lt_or_eq.mp (by simpa using hj) with hj | rfl
          · rw [hget j hj]; exact Int.le_trans (hmax j hj) (Int.le_of_lt hlt)
          · exact Int.le_of_eq (congrArg WeightedTarget.currentWeight (hlast _))
        · rw [hget j hj]; exact Int.lt_of_le_of_lt (hmax j hj) hlt
      · simp only [heavier, hlt, ↓reduceIte]
        refine ⟨by simp; omega, ⟨by simp; omega, fun j hj => ?_, fun j hj => ?_⟩, by rw [hget i hi]⟩ <;>
          rw [hget i hi]
        · rcases Nat.lt_succ_iff_lt_or_eq.mp (by simpa using hj) with hj | rfl
          · rw [hget j hj]; exact hmax j hj
          · rw [hlast]; exact Int.not_lt.mp hlt
        · rw [hget j (by omega)]; exact hfirst j hj

/-- `WeightedRoundRobin.NextTarget` selects the first target of highest current weight, and
selects one whenever there is a target. -/
theorem heaviest_spec (ts : List WeightedTarget) :
    (∀ i, heaviest ts = some i → IsHeaviest ts i) ∧ (heaviest ts = none ↔ ts = []) := by
  have h := heavier_foldl ts
  unfold heaviest
  revert h
  cases ts.enum.foldl heavier none with
  | none => intro h; simp only at h; exact ⟨fun _ h => (nomatch h), by simp [h]⟩
  | some s =>
    obtain ⟨i, c⟩ := s
    rintro ⟨hi, h, -⟩
    refine ⟨fun j hj => by cases hj; exact h, ?_⟩
    simp only [Option.map_some', reduceCtorEq, false_iff]
    rintro rfl
    exact absurd hi (by simp)

theorem lighter_foldl (ts : List ConnectionTarget) :
    match ts.enum.foldl lighter none with
    | none => ∀ t ∈ ts, t.healthy = false
    | some (i, _) => ∃ h : i < ts.length, ts[i].healthy = true := by
  induction ts using List.reverseRecOn with
  | nil => simp
  | append_singleton ts t ih =>
    rw [enum_snoc, List.foldl_append, List.foldl_cons, List.foldl_nil]
    revert ih
    cases ts.enum.foldl lighter none with
    | none =>
      intro hnone
      by_cases ht : t.healthy
      · simp only [lighter, ht, Bool.not_true, Bool.false_eq_true, ↓reduceIte]
        exact ⟨by simp, by simpa using ht⟩
      · simp only [lighter, ht, Bool.not_false, ↓reduceIte]
        intro u hu
        rcases List.mem_append.mp hu with hu | hu
        · exact hnone u hu
        · simp at hu; subst hu; simpa using ht
    | some s =>
      obtain ⟨i, c⟩ := s
      rintro ⟨hi, hh⟩
      have hold : ∃ h : i < (ts ++ [t]).length, (ts ++ [t])[i].healthy = true :=
        ⟨by simp; omega, by rw [List.getElem_append_left hi]; exact hh⟩
      by_cases ht : t.healthy
      · by_cases hlt : t.connections < c
        · simp only [lighter, ht, hlt, Bool.not_true, Bool.false_eq_true, ↓reduceIte]
          exact ⟨by simp, by simpa using ht⟩
        · simp only [lighter, ht, hlt, Bool.not_true, Bool.false_eq_true, ↓reduceIte]
          exact hold
      · simp only [lighter, ht, Bool.not_false, ↓reduceIte]
        exact hold

/-- `LeastConnections.NextTarget` selects a healthy target, and selects none only when no
target is healthy. -/
theorem leastLoaded_spec (ts : List ConnectionTarget) :
    (∀ i, leastLoaded ts = some i → ∃ h : i < ts.length, ts[i].healthy = true) ∧
      (leastLoaded ts = none ↔ ∀ t ∈ ts, t.healthy = false) := by
  have h := lighter_foldl ts
  unfold leastLoaded
  revert h
  cases ts.enum.foldl lighter none with
  | none => intro h; simp only at h; exact ⟨fun _ h => (nomatch h), iff_of_true rfl h⟩
  | some s =>
    obtain ⟨i, c⟩ := s
    rintro ⟨hi, hh⟩
    refine ⟨fun j hj => by cases hj; exact ⟨hi, hh⟩, ?_⟩
    simp only [Option.map_some', reduceCtorEq, false_iff]
    exact fun hall => absurd (hall _ (List.getElem_mem hi)) (by simp [hh])

theorem nextTargets_cons (d : Nat) (ds : List Nat) (lb : LoadBalancer) :
    nextTargets (d :: ds) lb =
      ((lb.nextTarget d).1 :: (nextTargets ds (lb.nextTarget d).2).1,
        (nextTargets ds (lb.nextTarget d).2).2) := rfl

theorem nextTargets_append (ds₁ ds₂ : List Nat) (lb : LoadBalancer) :
    nextTargets (ds₁ ++ ds₂) lb =
      ((nextTargets ds₁ lb).1 ++ (nextTargets ds₂ (nextTargets ds₁ lb).2).1,
        (nextTargets ds₂ (nextTargets ds₁ lb).2).2) := by
  induction ds₁ generalizing lb with
  | nil => rfl
  | cons d ds₁ ih => simp only [List.cons_append, nextTargets_cons, ih, List.cons_append]

@[simp] theorem length_nextTargets (ds : List Nat) (lb : LoadBalancer) :
    (nextTargets ds lb).1.length = ds.length := by
  induction ds generalizing lb with
  | nil => rfl
  | cons d ds ih => simp [nextTargets_cons, ih]

/-! ### Windows of a periodic sequence of selections -/

section Periodic

variable {α : Type} [BEq α] {f : Nat → α} {p : Nat}

/-- In a sequence of period `p`, every window of `p` consecutive terms holds each value as often
as the first one. -/
theorem count_window_shift (hf : ∀ j, f (j + p) = f j) (a : α) (m : Nat) :
    ((List.range p).map (fun j => f (m + j))).count a = ((List.range p).map f).count a := by
  induction m with
  | zero => simp
  | succ m ih =>
    rw [← ih]
    cases p with
    | zero => rfl
    | succ q =>
      have hlast : f (m + 1 + q) = f (m + 0) := by
        rw [show m + 1 + q = m + (q + 1) by omega, hf]; rfl
      have hmid : (List.range q).map (fun j => f (m + 1 + j)) =
          ((List.range q).map Nat.succ).map (fun j => f (m + j)) := by
        rw [List.map_map]
        exact List.map_congr_left fun j _ => congrArg f (by show m + 1 + j = m + (j + 1); omega)
      calc ((List.range (q + 1)).map (fun j => f (m + 1 + j))).count a
          = ((List.range q).map (fun j => f (m + 1 + j)) ++ [f (m + 0)]).count a := by
            rw [List.range_succ, List.map_append, List.map_singleton, hlast]
        _ = (f (m + 0) :: (List.range q).map (fun j => f (m + 1 + j))).count a :=
            (List.perm_append_singleton _ _).countP_eq (· == a)
        _ = ((List.range (q + 1)).map (fun j => f (m + j))).count a := by
            rw [List.range_succ_eq_map, List.map_cons, hmid]

/-- In a sequence of period `p`, every window of `k * p` consecutive terms holds each value `k`
times as often as the first `p` terms. -/
theorem count_window_mul (hf : ∀ j, f (j + p) = f j) (a : α) (m k : Nat) :
    ((List.range (k * p)).map (fun j => f (m + j))).count a = k * ((List.range p).map f).count a := by
  induction k with
  | zero => simp
  | succ k ih =>
    have hblock : (fun j => f (m + j)) ∘ (k * p + ·) = fun j => f (m + k * p + j) :=
      funext fun j => by simp only [Function.comp, Nat.add_assoc]
    rw [Nat.succ_mul, List.range_add, List.map_append, List.count_append, ih, List.map_map, hblock,
      count_window_shift hf a (m + k * p), Nat.succ_mul]

end Periodic

/-! ### Sums over the targets -/

/-- The sum of a list of integers. -/
def intSum : List Int → Int
  | [] => 0
  | x :: l => x + intSum l

@[simp] theorem intSum_nil : intSum [] = 0 := rfl

@[simp] theorem intSum_cons (x : Int) (l : List Int) : intSum (x :: l) = x + intSum l := rfl

@[simp] theorem intSum_append (l₁ l₂ : List Int) : intSum (l₁ ++ l₂) = intSum l₁ + intSum l₂ := by
  induction l₁ with
  | nil => simp
  | cons x l₁ ih => simp [ih, Int.add_assoc]

theorem intSum_map_add {α : Type} (g h : α → Int) (l : List α) :
    intSum (l.map fun a => g a + h a) = intSum (l.map g) + intSum (l.map h) := by
  induction l with
  | nil => rfl
  | cons a l ih => simp only [List.map_cons, intSum_cons, ih]; omega

/-- Changing the element `i` of a list changes the sum of `g` over it by the change of `g`. -/
theorem intSum_map_modify {α : Type} (g : α → Int) (f : α → α) :
    ∀ (l : List α) (i : Nat) (hi : i < l.length),
      intSum ((l.modify f i).map g) = intSum (l.map g) - g l[i] + g (f l[i])
  | [], _, hi => absurd hi (Nat.not_lt_zero _)
  | a :: l, 0, _ => by simp only [List.modify_zero_cons, List.map_cons, intSum_cons,
      List.getElem_cons_zero]; omega
  | a :: l, i + 1, hi => by
    simp only [List.modify_succ_cons, List.map_cons, intSum_cons, List.getElem_cons_succ,
      intSum_map_modify g f l i (by simpa using hi)]
    omega

theorem intSum_nonneg {l : List Int} (h : ∀ x ∈ l, 0 ≤ x) : 0 ≤ intSum l := by
  induction l with
  | nil => exact Int.le_refl 0
  | cons x l ih =>
    simp only [List.mem_cons, forall_eq_or_imp] at h
    simp only [intSum_cons]
    have := ih h.2
    omega

theorem intSum_nonpos {l : List Int} (h : ∀ x ∈ l, x ≤ 0) : intSum l ≤ 0 := by
  induction l with
  | nil => exact Int.le_refl 0
  | cons x l ih =>
    simp only [List.mem_cons, forall_eq_or_imp] at h
    simp only [intSum_cons]
    have := ih h.2
    omega

/-- Elements above `-c` sum to more than the length times `-c`. -/
theorem intSum_lower {l : List Int} {c : Int} (h : ∀ x ∈ l, -c < x) : -(l.length * c) ≤ intSum l := by
  induction l with
  | nil => simp
  | cons x l ih =>
    simp only [List.mem_cons, forall_eq_or_imp] at h
    simp only [intSum_cons, List.length_cons]
    push_cast
    have := ih h.2
    rw [Int.add_mul, Int.one_mul]
    omega

/-- Non-negative elements that sum to zero are all zero. -/
theorem eq_zero_of_intSum {l : List Int} (h : ∀ x ∈ l, 0 ≤ x) (hs : intSum l = 0) :
    ∀ x ∈ l, x = 0 := by
  induction l with
  | nil => simp
  | cons x l ih =>
    simp only [List.mem_cons, forall_eq_or_imp] at h ⊢
    simp only [intSum_cons] at hs
    have := intSum_nonneg h.2
    exact ⟨by omega, ih h.2 (by omega)⟩

end LoadBalancer
end ApiGateway
