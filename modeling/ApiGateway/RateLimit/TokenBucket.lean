import ApiGateway.Time

/-!
# ApiGateway.RateLimit.TokenBucket

`TokenBucket` keeps one `rate.Limiter` (from `golang.org/x/time/rate`) for each key, made with
the bucket's `rate` in tokens per second and its `burst`, and `Allow` asks it for one token.

The limiter is modelled as its `reserveN(now, 1, 0)` computes it. Its tokens are a `float64`;
here they are counted exactly, in units of `10⁻⁹` token, so that a refill over `e` nanoseconds
at `limit` tokens per second is `e * limit` units. A new limiter holds no token and was last
refilled at the zero time, so its first call finds a full bucket. A refused call changes
nothing; with `limit = 0` the burst itself is spent, one token a call.
-/

namespace ApiGateway
namespace RateLimit

/-- One token, in the units of `Limiter.tokens`. -/
def token : Int := 1000000000

/-- `time.Duration(math.MaxInt64)`: what `Sub` returns from the zero time to any later instant
of the clock, and `rate.InfDuration`. -/
def maxDuration : Int := 9223372036854775807

/-- A `rate.Limiter`: tokens per second, burst, tokens in units of `10⁻⁹` token, and the instant
of the last refill (`none` for the zero time). -/
structure Limiter where
  limit : Int
  burst : Int
  tokens : Int
  last : Option Int
  deriving DecidableEq, Repr

namespace Limiter

/-- `rate.NewLimiter(r, b)`. -/
def new (limit burst : Int) : Limiter := ⟨limit, burst, 0, none⟩

/-- `advance(t)`: the tokens at `t`, refilled for the time since the last refill (none when
the clock went back) and capped at the burst. -/
def advance (lim : Limiter) (t : Int) : Int :=
  let elapsed := match lim.last with
    | none => maxDuration
    | some last => t - min t last
  let delta := if lim.limit ≤ 0 then 0 else elapsed * lim.limit
  min (lim.tokens + delta) (lim.burst * token)

/-- `durationFromTokens` of the tokens missing after the call, in nanoseconds, truncated. -/
def wait (lim : Limiter) (tokens : Int) : Int :=
  if 0 ≤ tokens then 0 else if lim.limit ≤ 0 then maxDuration else -tokens / lim.limit

/-- `Allow()` at `t`, that is `reserveN(t, 1, 0).ok`, and the limiter after it. -/
def allow (lim : Limiter) (t : Int) : Bool × Limiter :=
  if lim.limit = 0 then
    if 1 ≤ lim.burst then (true, { lim with burst := lim.burst - 1 }) else (false, lim)
  else
    let tokens := lim.advance t - token
    if 1 ≤ lim.burst ∧ lim.wait tokens ≤ 0 then (true, { lim with tokens := tokens, last := some t })
    else (false, lim)

end Limiter

/-- `TokenBucket`: the limiters by key, the rate and the burst. -/
structure TokenBucket where
  limiters : String → Option Limiter
  rate : Int
  burst : Int

namespace TokenBucket

/-- `NewTokenBucket(rps, burst)`. -/
def new (rps burst : Int) : TokenBucket := ⟨fun _ => none, rps, burst⟩

/-- The limiter of `key`, new when it has none. -/
def limiter (tb : TokenBucket) (key : String) : Limiter :=
  (tb.limiters key).getD (Limiter.new tb.rate tb.burst)

/-- `Allow(key)` at `now`. -/
def allow (tb : TokenBucket) (key : String) (now : Int) : Bool × TokenBucket :=
  let r := (tb.limiter key).allow now
  (r.1, { tb with limiters := Function.update tb.limiters key (some r.2) })

/-- `Reset(key)`. -/
def reset (tb : TokenBucket) (key : String) : TokenBucket :=
  { tb with limiters := Function.update tb.limiters key none }

end TokenBucket
end RateLimit
end ApiGateway
