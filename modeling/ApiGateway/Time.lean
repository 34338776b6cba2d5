import Mathlib.Tactic.Ring
import Mathlib.Tactic.Linarith
/-!
# ApiGateway.Time

Go's clock as the gateway reads it. An instant is an `Int` count of nanoseconds since the Unix
epoch and a `time.Duration` is an `Int` count of nanoseconds. The wall clock and the monotonic
clock are one timeline here: every limiter claim is about calls whose instants never go back.

* `neg`: the negation `-d` of a duration, which Go computes in `int64`.
* `truncate`: `Time.Truncate`, rounding down to a multiple of the duration counted from Go's
  zero time, and the identity for a duration that is not positive.
* `truncate_mono`: what the fixed-window limiter needs of it.
* `truncate_two_windows`: the instants of a closed interval of length `d` fall in at most two
  aligned windows.
* `durationString`: `Duration.String`, the text the token answers give for the lifetime.
* `format`: `Time.Format` with the layout `20060102150405`, the one `generateRequestID` uses.
-/

namespace ApiGateway
namespace Time

/-- Go's zero `time.Time`, January 1 of year 1 UTC, in nanoseconds since the Unix epoch. -/
def zero : Int := -62135596800 * 1000000000

/-- `time.Second`. -/
def second : Int := 1000000000

/-- `time.Millisecond`. -/
def millisecond : Int := 1000000

/-- `t.Truncate(d)`. -/
def truncate (t d : Int) : Int := if d ≤ 0 then t else t - (t - zero) % d

/-- `-d` for a `time.Duration` `d`, an `int64` negation: the one value whose negation overflows,
`-2^63`, is its own negation. -/
def neg (d : Int) : Int := if d = -2 ^ 63 then d else -d

theorem neg_of_ne_min {d : Int} (hd : d ≠ -2 ^ 63) : neg d = -d := if_neg hd

/-- `t.UnixMilli()`. -/
def unixMilli (t : Int) : Int := t / millisecond

/-- `t.UnixNano()`, computed in `int64` as Go computes it: it wraps for instants more than about
292 years from the epoch. -/
def unixNano (t : Int) : Int := (t + 2 ^ 63) % 2 ^ 64 - 2 ^ 63

/-- `appendInt(b, x, width)` of the `time` package: the decimal digits of `x`, after a minus sign
when it is negative, padded with zeros to `width` digits. -/
def appendInt (x : Int) (width : Nat) : List Char :=
  let ds := Nat.toDigits 10 x.natAbs
  (if x < 0 then ['-'] else []) ++ List.replicate (width - ds.length) '0' ++ ds

/-- The loop of `fmtFrac(buf, v, prec)` of the `time` package over the `prec` low digits of `v`,
the lowest first: the digits written since the first that is not zero, the value left, and
whether one was written. -/
def fmtFracLoop : (prec v : Nat) → (print : Bool) → (acc : List Char) → List Char × Nat × Bool
  | 0, v, print, acc => (acc, v, print)
  | prec + 1, v, print, acc =>
    let print := print || v % 10 != 0
    fmtFracLoop prec (v / 10) print (if print then Char.ofNat (48 + v % 10) :: acc else acc)

/-- `fmtFrac(buf, v, prec)`: the fraction `v / 10^prec` without its trailing zeros, after a point
when a digit remains, and the value `v / 10^prec`. -/
def fmtFrac (v prec : Nat) : List Char × Nat :=
  match fmtFracLoop prec v false [] with
  | (w, v, print) => (if print then '.' :: w else w, v)

/-- `d.String()` of a `time.Duration`: below a second in `ns`, `µs` or `ms` with a fraction,
otherwise hours, minutes and seconds with a fraction, the hours and minutes only when not zero.
`fmtInt` writes the decimal digits of a value, which `Nat.toDigits` gives. -/
def durationString (d : Int) : String :=
  let u := d.natAbs
  let sign := if d < 0 then ['-'] else []
  if u < 1000000000 then
    if u = 0 then "0s"
    else
      let (unit, prec) :=
        if u < 1000 then (['n', 's'], 0) else if u < 1000000 then (['µ', 's'], 3) else (['m', 's'], 6)
      match fmtFrac u prec with
      | (frac, v) => ⟨sign ++ Nat.toDigits 10 v ++ frac ++ unit⟩
  else
    match fmtFrac u 9 with
    | (frac, secs) =>
      let s := Nat.toDigits 10 (secs % 60) ++ frac ++ ['s']
      let mins := secs / 60
      ⟨sign ++ if mins = 0 then s
        else (if mins / 60 = 0 then [] else Nat.toDigits 10 (mins / 60) ++ ['h']) ++
          Nat.toDigits 10 (mins % 60) ++ ['m'] ++ s⟩

/-- The year, month and day of the proleptic Gregorian calendar for a count of days since
1970-01-01, as `Time.Date` gives them. -/
def civil (days : Int) : Int × Int × Int :=
  let z := days + 719468
  let era := z / 146097
  let doe := z % 146097
  let yoe := (doe - doe / 1460 + doe / 36524 - doe / 146096) / 365
  let doy := doe - (365 * yoe + yoe / 4 - yoe / 100)
  let mp := (5 * doy + 2) / 153
  let m := if mp < 10 then mp + 3 else mp - 9
  (yoe + era * 400 + (if m ≤ 2 then 1 else 0), m, doy - (153 * mp + 2) / 5 + 1)

/-- `t.Format("20060102150405")` in a location whose offset east of UTC at each instant is
`zone`, in seconds. -/
def format (zone : Int → Int) (t : Int) : String :=
  let s := t / second + zone t
  let d := civil (s / 86400)
  let sod := s % 86400
  String.mk (appendInt d.1 4 ++ appendInt d.2.1 2 ++ appendInt d.2.2 2 ++ appendInt (sod / 3600) 2 ++
    appendInt (sod % 3600 / 60) 2 ++ appendInt (sod % 60) 2)

theorem truncate_of_nonpos {t d : Int} (hd : d ≤ 0) : truncate t d = t := if_pos hd

theorem truncate_eq {t d : Int} (hd : 0 < d) : truncate t d = zero + d * ((t - zero) / d) := by
  have := Int.emod_add_ediv (t - zero) d
  rw [truncate, if_neg (by omega)]
  omega

theorem truncate_mono {t t' : Int} (d : Int) (h : t ≤ t') : truncate t d ≤ truncate t' d := by
  rcases le_or_lt d 0 with hd | hd
  · rw [truncate_of_nonpos hd, truncate_of_nonpos hd]; exact h
  · rw [truncate_eq hd, truncate_eq hd]
    have := Int.mul_le_mul_of_nonneg_left
      (Int.ediv_le_ediv hd (show t - zero ≤ t' - zero by omega)) (le_of_lt hd)
    linarith

/-- Every instant of `[a, a + d]` is truncated to the window of `a` or to the next one. -/
theorem truncate_two_windows {a t d : Int} (hd : 0 < d) (ha : a ≤ t) (ht : t ≤ a + d) :
    truncate t d = truncate a d ∨ truncate t d = truncate a d + d := by
  have hq : (a + d - zero) / d = (a - zero) / d + 1 := by
    rw [show a + d - zero = (a - zero) + 1 * d by ring, Int.add_mul_ediv_right _ _ (by omega)]
  have h1 := Int.ediv_le_ediv hd (show a - zero ≤ t - zero by omega)
  have h2 := Int.ediv_le_ediv hd (show t - zero ≤ a + d - zero by omega)
  rw [truncate_eq hd, truncate_eq hd]
  rcases (show (t - zero) / d = (a - zero) / d ∨ (t - zero) / d = (a - zero) / d + 1 by omega)
    with h | h <;> rw [h]
  · exact .inl rfl
  · exact .inr (by ring)

/-- An instant truncated to the second is a whole number of seconds. -/
theorem truncate_second_ediv (t : Int) : truncate t second / second * second = truncate t second := by
  rw [truncate_eq (by decide)]
  simp only [zero, second]
  omega

theorem truncate_truncate_second (t : Int) :
    truncate (truncate t second) second = truncate t second := by
  rw [truncate_eq (by decide), truncate_eq (by decide)]
  simp only [zero, second]
  omega

end Time
end ApiGateway
