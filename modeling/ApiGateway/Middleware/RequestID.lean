import Mathlib.Data.List.Nodup
import ApiGateway.Time

/-!
# ApiGateway.Middleware.RequestID

`generateRequestID`, which the `RequestID` stage calls for every request: a first reading of the
clock formatted as `20060102150405` in the local zone, a dash, and `randomString(8)`. Each
character of `randomString` is `charset[time.Now().UnixNano() % 62]` for a reading of its own,
so nothing random enters: the id is decided by the second of the first reading and by the
residues modulo 62 of the eight others. A reading before the epoch whose residue is not zero
indexes the charset below zero, and Go panics.

A clock is the list of its readings in the order the calls are made: `clock i` is the instant
the `i`-th `time.Now()` returns.

* `generateRequestID_eq_iff`: two calls give the same id exactly when their first readings
  format alike and their other readings agree modulo 62.
* `request_ids_collide`: two calls whose readings are 62 nanoseconds apart give the same id.
-/

namespace ApiGateway
namespace Middleware

/-- The `charset` of `randomString`. -/
def charset : List Char := "abcdefghijklmnopqrstuvwxyzABCDEFGHIJKLMNOPQRSTUVWXYZ0123456789".toList

/-- `charset[n % int64(len(charset))]` for a reading `n` of `UnixNano`: Go's `%` keeps the sign
of `n`, and a negative index panics, which is none here. -/
def charAt (n : Int) : Option Char :=
  if n.tmod 62 < 0 then none else charset[(n.tmod 62).toNat]?

/-- The characters of `randomString(length)`, one for each reading of the clock, in order. -/
def randomChars (clock : Nat → Int) : Nat → Option (List Char)
  | 0 => some []
  | n + 1 => do
    let c ← charAt (Time.unixNano (clock 0))
    let cs ← randomChars (fun i => clock (i + 1)) n
    pure (c :: cs)

/-- `randomString(length)`. -/
def randomString (length : Nat) (clock : Nat → Int) : Option String :=
  (randomChars clock length).map String.mk

/-- `generateRequestID()` in the local location `zone`: the first reading is formatted, and
`randomString(8)` makes the eight after it. -/
def generateRequestID (zone : Int → Int) (clock : Nat → Int) : Option String :=
  (randomString 8 fun i => clock (i + 1)).map fun r => Time.format zone (clock 0) ++ "-" ++ r

theorem charset_nodup : charset.Nodup := List.Nodup.of_map Char.toNat (by decide)

/-- Two characters of the charset are equal exactly when their readings agree modulo 62. -/
theorem charAt_eq_iff {n n' : Int} {c c' : Char} (h : charAt n = some c) (h' : charAt n' = some c') :
    c = c' ↔ n.tmod 62 = n'.tmod 62 := by
  unfold charAt at h h'
  split at h
  · cases h
  split at h'
  · cases h'
  obtain ⟨hi, rfl⟩ := List.getElem?_eq_some.mp h
  obtain ⟨hi', rfl⟩ := List.getElem?_eq_some.mp h'
  rw [charset_nodup.getElem_inj_iff]
  omega

theorem randomChars_succ {clock : Nat → Int} {n : Nat} {cs : List Char} :
    randomChars clock (n + 1) = some cs ↔ ∃ c cs₀, charAt (Time.unixNano (clock 0)) = some c ∧
      randomChars (fun i => clock (i + 1)) n = some cs₀ ∧ cs = c :: cs₀ := by
  simp only [randomChars, Option.bind_eq_bind, Option.bind_eq_some, Option.pure_def,
    Option.some.injEq]
  constructor
  · rintro ⟨c, hc, cs₀, hcs, rfl⟩
    exact ⟨c, cs₀, hc, hcs, rfl⟩
  · rintro ⟨c, cs₀, hc, hcs, rfl⟩
    exact ⟨c, hc, cs₀, hcs, rfl⟩

theorem randomChars_length {clock : Nat → Int} {n : Nat} {cs : List Char}
    (h : randomChars clock n = some cs) : cs.length = n := by
  induction n generalizing clock cs with
  | zero => cases h; rfl
  | succ n ih =>
    obtain ⟨c, cs₀, -, hcs, rfl⟩ := randomChars_succ.mp h
    exact congrArg (· + 1) (ih hcs)

/-- Two runs of `randomString`'s loop give the same characters exactly when their readings agree
modulo 62, one by one. -/
theorem randomChars_eq_iff {clock clock' : Nat → Int} {n : Nat} {cs cs' : List Char}
    (h : randomChars clock n = some cs) (h' : randomChars clock' n = some cs') :
    cs = cs' ↔ ∀ i < n, (Time.unixNano (clock i)).tmod 62 = (Time.unixNano (clock' i)).tmod 62 := by
  induction n generalizing clock clock' cs cs' with
  | zero =>
    cases h; cases h'
    exact ⟨fun _ i hi => absurd hi (Nat.not_lt_zero i), fun _ => rfl⟩
  | succ n ih =>
    obtain ⟨c, cs₀, hc, hcs, rfl⟩ := randomChars_succ.mp h
    obtain ⟨c', cs₀', hc', hcs', rfl⟩ := randomChars_succ.mp h'
    rw [List.cons.injEq, charAt_eq_iff hc hc', ih hcs hcs']
    constructor
    · rintro ⟨h₀, hs⟩ i hi
      cases i with
      | zero => exact h₀
      | succ i => exact hs i (Nat.lt_of_succ_lt_succ hi)
    · intro hall
      exact ⟨hall 0 (Nat.succ_pos n), fun i hi => hall (i + 1) (Nat.succ_lt_succ hi)⟩

/-- Two calls of `generateRequestID` that do not panic give the same id exactly when their first
readings format to the same text and each of their eight other readings agree modulo 62. -/
theorem generateRequestID_eq_iff {zone : Int → Int} {clock clock' : Nat → Int} {id id' : String}
    (h : generateRequestID zone clock = some id) (h' : generateRequestID zone clock' = some id') :
    id = id' ↔ Time.format zone (clock 0) = Time.format zone (clock' 0) ∧
      ∀ i < 8, (Time.unixNano (clock (i + 1))).tmod 62 = (Time.unixNano (clock' (i + 1))).tmod 62 := by
  simp only [generateRequestID, randomString, Option.map_map, Option.map_eq_some',
    Function.comp] at h h'
  obtain ⟨cs, hcs, rfl⟩ := h
  obtain ⟨cs', hcs', rfl⟩ := h'
  have hl : cs.length = cs'.length := by rw [randomChars_length hcs, randomChars_length hcs']
  rw [← randomChars_eq_iff hcs hcs', String.ext_iff, String.ext_iff]
  simp only [String.data_append]
  constructor
  · intro e
    obtain ⟨e₁, e₂⟩ := List.append_inj' e hl
    exact ⟨List.append_cancel_right e₁, e₂⟩
  · rintro ⟨e₁, rfl⟩
    rw [e₁]

theorem generateRequestID_eq_iff_apart :
    generateRequestID (fun _ => 0) (fun _ => 1700000000000000000) = some "20231114221320-AAAAAAAA" ∧
      generateRequestID (fun _ => 0) (fun _ => 1700000000000000001) = some "20231114221320-BBBBBBBB" ∧
      ("20231114221320-AAAAAAAA" = "20231114221320-BBBBBBBB" ↔
        Time.format (fun _ => 0) 1700000000000000000 = Time.format (fun _ => 0) 1700000000000000001 ∧
          ∀ i < 8, (Time.unixNano 1700000000000000000).tmod 62 = (Time.unixNano 1700000000000000001).tmod 62) :=
  have h₁ : generateRequestID (fun _ => 0) (fun _ => 1700000000000000000) = some "20231114221320-AAAAAAAA" := by
    decide
  have h₂ : generateRequestID (fun _ => 0) (fun _ => 1700000000000000001) = some "20231114221320-BBBBBBBB" := by
    decide
  ⟨h₁, h₂, @generateRequestID_eq_iff (fun _ => 0) (fun _ => 1700000000000000000)
    (fun _ => 1700000000000000001) _ _ h₁ h₂⟩

/-- Two calls, in UTC, one whose nine readings are all at 2023-11-14 22:13:20 and one whose
readings are all 62 nanoseconds later: no reading of one is a reading of the other, and both
return the id `20231114221320-AAAAAAAA`. -/
theorem request_ids_collide :
    generateRequestID (fun _ => 0) (fun _ => 1700000000000000000) = some "20231114221320-AAAAAAAA" ∧
      generateRequestID (fun _ => 0) (fun _ => 1700000000000000062) = some "20231114221320-AAAAAAAA" := by
  decide

end Middleware
end ApiGateway
