import ApiGateway.Config
import ApiGateway.RateLimit.TokenBucket
import ApiGateway.RateLimit.FixedWindow
import ApiGateway.RateLimit.Distributed

/-!
# ApiGateway.RateLimit.Manager

`ratelimit.Manager` builds one algorithm for the default rule and one for each per-user and
per-service rule (under the keys `user:<id>` and `service:<id>`), and `CheckLimit(key)` asks the
algorithm registered under `key`, or the default one, to `Allow(key)`.

The default rule falls back to a `TokenBucket` for an unknown algorithm name and for
`distributed` without a Redis client; a per-user or per-service rule gets no algorithm then.
Every `TokenBucket` is built from the rule's `Requests` and `Burst`: its `Window` is not read.

The shared store of the distributed algorithm is part of the state of a run. The two clock
reads of `FixedWindow.Allow` are one instant at this level.

* `checkLimit_token_bucket`: for a configuration with the algorithm `token_bucket`, one request
  per two-second window and a burst of one, `CheckLimit` admits calls at `0 s`, `1 s` and `2 s`.
-/

namespace ApiGateway
namespace RateLimit

/-- The shared store: its keys, and the error every script run returns while it is down. -/
structure Store where
  keys : String → ZKey
  failure : Option String

/-- A value of the `Algorithm` interface. -/
inductive Algorithm where
  | tokenBucket (tb : TokenBucket)
  | slidingWindow (sw : SlidingWindow)
  | fixedWindow (fw : FixedWindow)
  | distributed (drl : DistributedRateLimit)

namespace Algorithm

/-- `Allow(key)` at `now`: the decision or the error, the algorithm and the store after it. -/
def allow (store : Store) (key : String) (now : Int) : Algorithm → Except String Bool × Algorithm × Store
  | .tokenBucket tb => match tb.allow key now with | (ok, tb) => (.ok ok, .tokenBucket tb, store)
  | .slidingWindow sw => match sw.allow key now with | (ok, sw) => (.ok ok, .slidingWindow sw, store)
  | .fixedWindow fw => match fw.allow key now now with | (ok, fw) => (.ok ok, .fixedWindow fw, store)
  | .distributed drl =>
    match store.failure with
    | some e => (.error ("rate limit error: " ++ e), .distributed drl, store)
    | none =>
      match drl.allow (store.keys key) now with
      | (ok, k) => (.ok ok, .distributed drl, { store with keys := Function.update store.keys key k })

/-- `Reset(key)`. -/
def reset (store : Store) (key : String) : Algorithm → Except String Unit × Algorithm × Store
  | .tokenBucket tb => (.ok (), .tokenBucket (tb.reset key), store)
  | .slidingWindow sw => (.ok (), .slidingWindow (sw.reset key), store)
  | .fixedWindow fw => (.ok (), .fixedWindow (fw.reset key), store)
  | .distributed drl =>
    match store.failure with
    | some e => (.error e, .distributed drl, store)
    | none => (.ok (), .distributed drl, { store with keys := Function.update store.keys key ZKey.empty })

end Algorithm

/-- The algorithm `initializeAlgorithms` builds for the default rule. -/
def defaultAlgorithm (algorithm : String) (redis : Bool) (rule : RateLimitRule) : Algorithm :=
  match algorithm with
  | "sliding_window" => .slidingWindow (SlidingWindow.new rule.requests rule.window)
  | "fixed_window" => .fixedWindow (FixedWindow.new rule.requests rule.window)
  | "distributed" =>
    if redis then .distributed ⟨rule.requests, rule.window⟩
    else .tokenBucket (TokenBucket.new rule.requests rule.burst)
  | _ => .tokenBucket (TokenBucket.new rule.requests rule.burst)

/-- The algorithm `initializeAlgorithms` builds for a per-user or per-service rule. -/
def ruleAlgorithm (algorithm : String) (redis : Bool) (rule : RateLimitRule) : Option Algorithm :=
  match algorithm with
  | "token_bucket" => some (.tokenBucket (TokenBucket.new rule.requests rule.burst))
  | "sliding_window" => some (.slidingWindow (SlidingWindow.new rule.requests rule.window))
  | "fixed_window" => some (.fixedWindow (FixedWindow.new rule.requests rule.window))
  | "distributed" => if redis then some (.distributed ⟨rule.requests, rule.window⟩) else none
  | _ => none

/-- Registers the algorithm of each rule of `rules` under `prefix` followed by its id. -/
def registerRules (algorithm : String) (redis : Bool) (pre : String)
    (algorithms : String → Option Algorithm) (rules : List (String × RateLimitRule)) :
    String → Option Algorithm :=
  rules.foldl (fun m r =>
    match ruleAlgorithm algorithm redis r.2 with
    | some a => Function.update m (pre ++ r.1) (some a)
    | none => m) algorithms

/-- `initializeAlgorithms`, with `redis` telling whether a Redis client is there. -/
def initializeAlgorithms (cfg : RateLimitConfig) (redis : Bool) : String → Option Algorithm :=
  let m := Function.update (fun _ => none) "default" (some (defaultAlgorithm cfg.algorithm redis cfg.default))
  let m := registerRules cfg.algorithm redis "user:" m cfg.perUser
  registerRules cfg.algorithm redis "service:" m cfg.perService

/-- `ratelimit.Manager`: its algorithms and the configuration it was built from. -/
structure Manager where
  algorithms : String → Option Algorithm
  config : RateLimitConfig

namespace Manager

/-- `NewManager(cfg, redisClient, logger)`. -/
def new (cfg : RateLimitConfig) (redis : Bool) : Manager :=
  ⟨if cfg.enabled then initializeAlgorithms cfg redis else fun _ => none, cfg⟩

/-- The key of the algorithm `CheckLimit(key)` and `Reset(key)` use. -/
def algorithmKey (m : Manager) (key : String) : String :=
  if (m.algorithms key).isSome then key else "default"

/-- `CheckLimit(key)` at `now`. -/
def checkLimit (m : Manager) (store : Store) (key : String) (now : Int) :
    Except String Bool × Manager × Store :=
  if !m.config.enabled then (.ok true, m, store)
  else
    match m.algorithms (m.algorithmKey key) with
    | none => (.ok true, m, store)
    | some a =>
      match a.allow store key now with
      | (result, a, store) =>
        (result, { m with algorithms := Function.update m.algorithms (m.algorithmKey key) (some a) },
          store)

/-- `Reset(key)`. -/
def reset (m : Manager) (store : Store) (key : String) : Except String Unit × Manager × Store :=
  match m.algorithms (m.algorithmKey key) with
  | none => (.error ("no algorithm found for key: " ++ key), m, store)
  | some a =>
    let r := a.reset store key
    (r.1, { m with algorithms := Function.update m.algorithms (m.algorithmKey key) (some r.2.1) },
      r.2.2)

/-- `CheckLimit(key)` at each instant of `ts` in turn: the results, the manager and the store. -/
def runKey (m : Manager) (store : Store) (key : String) (ts : List Int) :
    List (Except String Bool) × Manager × Store :=
  ts.foldl (fun acc t =>
    let r := acc.2.1.checkLimit acc.2.2 key t
    (acc.1 ++ [r.1], r.2.1, r.2.2)) ([], m, store)

end Manager

/-- A call on the manager: `CheckLimit(key)` at `now`, or `Reset(key)`. -/
inductive Call where
  | checkLimit (key : String) (now : Int)
  | reset (key : String)
  deriving DecidableEq, Repr

/-- The key a call names. -/
def Call.key : Call → String
  | .checkLimit key _ => key
  | .reset key => key

/-- What a call returns: the decision of `CheckLimit`, or the error of `Reset`. -/
inductive Outcome where
  | decision (r : Except String Bool)
  | reset (r : Except String Unit)

namespace Manager

/-- One call: its outcome, the manager and the store after it. -/
def call (m : Manager) (store : Store) : Call → Outcome × Manager × Store
  | .checkLimit key now => match m.checkLimit store key now with
    | (r, m, store) => (.decision r, m, store)
  | .reset key => match m.reset store key with
    | (r, m, store) => (.reset r, m, store)

/-- The calls of `calls` in turn: each call's key with its outcome, the manager and the store
after the last one. -/
def run (m : Manager) (store : Store) : List Call → List (String × Outcome) × Manager × Store
  | [] => ([], m, store)
  | c :: cs => match m.call store c with
    | (o, m, store) => match run m store cs with
      | (os, m, store) => ((c.key, o) :: os, m, store)

end Manager

/-- A store with no key, up. -/
def Store.empty : Store := ⟨fun _ => ZKey.empty, none⟩

/-- With the algorithm `token_bucket`, one request per two-second window and a burst of one,
three calls one second apart all pass: the bucket refills one token per second. -/
theorem checkLimit_token_bucket :
    (((Manager.new ⟨true, "token_bucket", ⟨1, 2 * Time.second, 1⟩, [], []⟩ false).runKey
      Store.empty "ip:1.2.3.4" [0, Time.second, 2 * Time.second]).1 =
      [.ok true, .ok true, .ok true]) := by
  rfl

end RateLimit
end ApiGateway
