import Mathlib.Data.List.Nodup
import ApiGateway.LoadBalancer

/-!
# ApiGateway.LoadBalancer.LeastConnections

`LeastConnections.NextTarget` skips the targets marked unhealthy, and `IsHealthy(u)` reads the
health of the first target of URL `u`. When the URLs are pairwise distinct the two agree: the
target returned is healthy by `IsHealthy`. And the balancer returns no target only when
`IsHealthy` is false for every URL it lists. A URL listed twice, as the configuration or
`AddTarget` may give, breaks the first: `MarkUnhealthy(u)` marks the first target of `u`, and
`NextTarget` still returns the second.

Each selection adds one connection to the target returned, in `int64`; marking a target changes
no count.

* `nextTarget_healthy_of_nodup`: on every balancer reachable from `NewLeastConnections`, a URL
  whose `IsHealthy` is false is not returned when the URLs are distinct, and no target is
  returned only when every listed URL is unhealthy.
* `duplicate_unhealthy_returned`: over `a, a`, after `MarkUnhealthy(a)`, `NextTarget` returns `a`.
* `connectionsOf_nextTarget`: a selection adds one connection, modulo `2^64`, to the URL it
  returns.
-/

namespace ApiGateway
namespace LoadBalancer

theorem call_leastConnections (ts : List ConnectionTarget) (c : Call) :
    ∃ ts', (LoadBalancer.leastConnections ts).call c = .leastConnections ts' := by
  cases c with
  | nextTarget d =>
    simp only [call, nextTarget]
    split
    · exact ⟨_, rfl⟩
    · split <;> exact ⟨_, rfl⟩
  | _ => exact ⟨_, rfl⟩

/-- The calls keep a least-connections balancer one. -/
theorem run_leastConnections (ts : List ConnectionTarget) (calls : List Call) :
    ∃ ts', (LoadBalancer.leastConnections ts).run calls = .leastConnections ts' := by
  induction calls generalizing ts with
  | nil => exact ⟨ts, rfl⟩
  | cons c calls ih =>
    obtain ⟨ts', h⟩ := call_leastConnections ts c
    rw [run, List.foldl_cons, h]
    exact ih ts'

/-- What `LeastConnections.NextTarget` returns: the URL of the target `leastLoaded` picks. -/
theorem nextTarget_leastConnections_fst (d : Nat) (ts : List ConnectionTarget) :
    (nextTarget d (.leastConnections ts)).1 = (leastLoaded ts).bind fun i => (ts[i]?).map (·.url) := by
  simp only [nextTarget]
  split
  · subst_vars; rfl
  · split <;> simp_all

/-- With distinct URLs, `IsHealthy` of a target's URL is that target's health. -/
theorem isHealthy_of_mem {ts : List ConnectionTarget} (hnd : (ts.map (·.url)).Nodup)
    {t : ConnectionTarget} (ht : t ∈ ts) : isHealthy t.url (.leastConnections ts) = t.healthy := by
  have hfind : ts.find? (·.url = t.url) = some t := by
    cases hf : ts.find? (·.url = t.url) with
    | none => simpa using List.find?_eq_none.mp hf t ht
    | some t' =>
      have hu : t'.url = t.url := by simpa using List.find?_some hf
      rw [List.inj_on_of_nodup_map hnd (List.mem_of_find?_eq_some hf) ht hu]
  simp [isHealthy, hfind]

theorem isHealthy_of_all_unhealthy {ts : List ConnectionTarget} (h : ∀ t ∈ ts, t.healthy = false)
    (u : String) : isHealthy u (.leastConnections ts) = false := by
  simp only [isHealthy]
  cases hf : ts.find? (·.url = u) with
  | none => rfl
  | some t => exact h t (List.mem_of_find?_eq_some hf)

/-- On every balancer reachable from `NewLeastConnections` by any calls: when its URLs are
distinct, `NextTarget` does not return a URL whose `IsHealthy` is false; and `NextTarget`
returns no target only when `IsHealthy` is false for every URL it lists. -/
theorem nextTarget_healthy_of_nodup (targets : List String) (calls : List Call) (d : Nat) :
    (((newLeastConnections targets).run calls).getTargets.Nodup → ∀ u,
      ((newLeastConnections targets).run calls).isHealthy u = false →
        (((newLeastConnections targets).run calls).nextTarget d).1 ≠ some u) ∧
    ((((newLeastConnections targets).run calls).nextTarget d).1 = none →
      ∀ u ∈ ((newLeastConnections targets).run calls).getTargets,
        ((newLeastConnections targets).run calls).isHealthy u = false) := by
  obtain ⟨ts, hts⟩ := run_leastConnections _ calls
  rw [newLeastConnections, hts, nextTarget_leastConnections_fst]
  have hspec := leastLoaded_spec ts
  refine ⟨fun hnd u hu hsel => ?_, fun hnone u _ => ?_⟩
  · obtain ⟨i, hi, hsel⟩ := Option.bind_eq_some.mp hsel
    obtain ⟨hlt, hhealthy⟩ := hspec.1 i hi
    rw [List.getElem?_eq_getElem hlt, Option.map_some', Option.some_inj] at hsel
    have := isHealthy_of_mem hnd (List.getElem_mem hlt)
    rw [hsel, hhealthy] at this
    exact absurd (hu ▸ this) Bool.false_ne_true
  · refine isHealthy_of_all_unhealthy (hspec.2.mp ?_) u
    cases hl : leastLoaded ts with
    | none => rfl
    | some i =>
      obtain ⟨hlt, -⟩ := hspec.1 i hl
      simp [hl, List.getElem?_eq_getElem hlt] at hnone

theorem nextTarget_healthy_of_nodup_two :
    ((newLeastConnections ["a", "b"]).run [.markUnhealthy "a"]).getTargets.Nodup ∧
      ((newLeastConnections ["a", "b"]).run [.markUnhealthy "a"]).isHealthy "a" = false ∧
      (((newLeastConnections ["a", "b"]).run [.markUnhealthy "a"]).nextTarget 0).1 ≠ some "a" :=
  ⟨by decide, by decide,
    (nextTarget_healthy_of_nodup ["a", "b"] [.markUnhealthy "a"] 0).1 (by decide) "a" (by decide)⟩

/-- Over the targets `a, a`, after `MarkUnhealthy(a)`, `IsHealthy(a)` is false and `NextTarget`
returns `a`: the mark reached only the first of the two. -/
theorem duplicate_unhealthy_returned :
    ((newLeastConnections ["a", "a"]).run [.markUnhealthy "a"]).isHealthy "a" = false ∧
      (((newLeastConnections ["a", "a"]).run [.markUnhealthy "a"]).nextTarget 0).1 = some "a" := by
  decide

/-! ### Connection counts -/

/-- The connections a least-connections balancer counts for the URL `u`, over its targets of that
URL. -/
def connectionsOf (u : String) : LoadBalancer → Int
  | .leastConnections ts => intSum (ts.map fun t => if t.url = u then t.connections else 0)
  | _ => 0

theorem map_updateFirst_of_comp {α β : Type} (g : α → β) (p : α → Bool) (f : α → α)
    (hf : ∀ a, g (f a) = g a) : ∀ l : List α, (updateFirst p f l).map g = l.map g
  | [] => rfl
  | a :: l => by
    simp only [updateFirst]
    split <;> simp [hf, map_updateFirst_of_comp g p f hf l]

/-- Marking a target unhealthy changes no count. -/
@[simp] theorem connectionsOf_markUnhealthy (u target : String) (lb : LoadBalancer) :
    connectionsOf u (lb.markUnhealthy target) = connectionsOf u lb := by
  cases lb with
  | leastConnections ts =>
    simp only [markUnhealthy, connectionsOf]
    rw [map_updateFirst_of_comp (fun t : ConnectionTarget => if t.url = u then t.connections else 0) _
      (fun t => { t with healthy := false }) fun _ => rfl]
  | _ => rfl

/-- A selection adds one connection, modulo `2^64`, to the URL it returns, and changes no other
count. -/
theorem connectionsOf_nextTarget (d : Nat) (ts : List ConnectionTarget) (u : String) :
    connectionsOf u (nextTarget d (.leastConnections ts)).2 % 2 ^ 64 =
      (connectionsOf u (.leastConnections ts) +
        if (nextTarget d (.leastConnections ts)).1 = some u then 1 else 0) % 2 ^ 64 := by
  simp only [nextTarget]
  split
  · simp
  · cases hl : leastLoaded ts with
    | none => simp
    | some i =>
      obtain ⟨hlt, -⟩ := (leastLoaded_spec ts).1 i hl
      simp only [connectionsOf]
      rw [intSum_map_modify _ _ _ _ hlt]
      simp only [List.getElem?_eq_getElem hlt, Option.map_some', Option.some_inj]
      by_cases hu : ts[i].url = u <;> simp only [hu, ↓reduceIte, i64] <;> omega

end LoadBalancer
end ApiGateway
