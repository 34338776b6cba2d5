import Mathlib.Data.List.Basic

/-!
# ApiGateway.Json

Go's `unicode/utf8` and `encoding/json` on bytes, as far as the claims of a token go through
them: what `json.Marshal` writes for strings, integers, arrays and objects, and how
`json.Unmarshal` reads any JSON text into a `Value`. A Go string is its bytes, which need not be
well-formed UTF-8: `Marshal` writes `\ufffd` for a byte that starts no well-formed sequence, and
`Unmarshal` reads such a byte as U+FFFD, so that what it reads is always a well-formed `String`.

* `decodeRune_encodeRune`: `utf8.DecodeRune` reads back what `utf8.EncodeRune` writes.
* `quote_goString`, `readString_flatMap`: the quoted text of a well-formed string escapes its
  characters one by one, and is read back as them.
* `Reads`: the text of a value, which the parser reads it from whatever follows it.
  `reads_quote`, `reads_formatInt`, `reads_null`, `reads_writeArray` and `reads_writeObject`
  build the texts `Marshal` writes from their parts, and `parse_of_reads` reads one alone.

A number is read as the decimal its literal denotes; Go reads it into a `float64`, which rounds
it. The escapes are those of Go 1.22 and later (`\b` and `\f` for backspace and form feed), and
the decoder reads keys as Go 1.21 and later match them.
-/

namespace ApiGateway
namespace Json

/-- Results are compared by their cases and contents, so that a run of the reader can be decided. -/
instance decEqExcept {ε α : Type} [DecidableEq ε] [DecidableEq α] : DecidableEq (Except ε α)
  | .error a, .error b => decidable_of_iff (a = b) ⟨congrArg _, Except.error.inj⟩
  | .ok a, .ok b => decidable_of_iff (a = b) ⟨congrArg _, Except.ok.inj⟩
  | .error _, .ok _ => isFalse fun h => Except.noConfusion h
  | .ok _, .error _ => isFalse fun h => Except.noConfusion h

/-! ## UTF-8 -/

/-- `utf8.RuneError`, U+FFFD. -/
def runeError : Char := '\uFFFD'

/-- `utf8.EncodeRune`: the one to four bytes of a character. A `Char` is never a surrogate nor
above U+10FFFF, the runes `EncodeRune` writes as `RuneError`. -/
def encodeRune (c : Char) : List UInt8 :=
  let n := c.toNat
  if n < 0x80 then [.ofNat n]
  else if n < 0x800 then [.ofNat (0xC0 + n / 64), .ofNat (0x80 + n % 64)]
  else if n < 0x10000 then
    [.ofNat (0xE0 + n / 4096), .ofNat (0x80 + n / 64 % 64), .ofNat (0x80 + n % 64)]
  else
    [.ofNat (0xF0 + n / 262144), .ofNat (0x80 + n / 4096 % 64), .ofNat (0x80 + n / 64 % 64),
      .ofNat (0x80 + n % 64)]

/-- The bytes of the Go string that holds `s`. -/
def goString (s : String) : List UInt8 := s.data.flatMap encodeRune

/-- The length of the sequence a first byte `b` of at least `0x80` starts, and `0` for a byte
that starts none: `C2`-`DF` two bytes, `E0`-`EF` three, `F0`-`F4` four. -/
def seqLen (b : Nat) : Nat :=
  if b < 0xC2 then 0 else if b < 0xE0 then 2 else if b < 0xF0 then 3 else if b < 0xF5 then 4 else 0

/-- A continuation byte, `10xxxxxx`. -/
def isCont (b : UInt8) : Bool := b.toNat / 64 = 2

/-- The character a sequence starting with the byte `n` (at least `0x80`) encodes, from the bytes
`bs` after it, and its length; `(RuneError, 1)` when it is not well formed. The accept ranges of the
second byte in `utf8` (`E0 A0`, `ED 80`-`9F`, `F0 90`, `F4 80`-`8F`) are here the conditions on the
value: no overlong form, no surrogate, nothing above U+10FFFF. -/
def decodeSeq (n : Nat) (bs : List UInt8) : Char × Nat :=
  match seqLen n, bs with
  | 2, c₁ :: _ =>
    if isCont c₁ then (Char.ofNat (n % 32 * 64 + c₁.toNat % 64), 2) else (runeError, 1)
  | 3, c₁ :: c₂ :: _ =>
    let r := n % 16 * 4096 + c₁.toNat % 64 * 64 + c₂.toNat % 64
    if isCont c₁ ∧ isCont c₂ ∧ 0x800 ≤ r ∧ (r < 0xD800 ∨ 0xDFFF < r) then (Char.ofNat r, 3)
    else (runeError, 1)
  | 4, c₁ :: c₂ :: c₃ :: _ =>
    let r := n % 8 * 262144 + c₁.toNat % 64 * 4096 + c₂.toNat % 64 * 64 + c₃.toNat % 64
    if isCont c₁ ∧ isCont c₂ ∧ isCont c₃ ∧ 0x10000 ≤ r ∧ r ≤ 0x10FFFF then (Char.ofNat r, 4)
    else (runeError, 1)
  | _, _ => (runeError, 1)

/-- `utf8.DecodeRune(p)`: the first character of `p` and the number of bytes it takes;
`(RuneError, 1)` when `p` does not start with a well-formed sequence, and `(RuneError, 0)` when
`p` is empty. -/
def decodeRune : List UInt8 → Char × Nat
  | [] => (runeError, 0)
  | b :: bs => if b.toNat < 0x80 then (Char.ofNat b.toNat, 1) else decodeSeq b.toNat bs

@[simp] theorem toNat_ofNat (n : Nat) : (UInt8.ofNat n).toNat = n % 256 := rfl

theorem toNat_ofNat_lt {x : Nat} (h : x < 256) : (UInt8.ofNat x).toNat = x := Nat.mod_eq_of_lt h

theorem seqLen_eq {b : Nat} :
    (0xC2 ≤ b → b < 0xE0 → seqLen b = 2) ∧ (0xE0 ≤ b → b < 0xF0 → seqLen b = 3) ∧
      (0xF0 ≤ b → b < 0xF5 → seqLen b = 4) := by
  unfold seqLen
  refine ⟨fun h₁ h₂ => ?_, fun h₁ h₂ => ?_, fun h₁ h₂ => ?_⟩ <;> split_ifs <;> omega

theorem isCont_ofNat {n : Nat} (h : n < 64) : isCont (.ofNat (0x80 + n)) := by
  simp only [isCont, toNat_ofNat_lt (show 0x80 + n < 256 by omega), decide_eq_true_eq]
  omega

theorem cont_mod {b : Nat} (h : b < 64) : (UInt8.ofNat (0x80 + b)).toNat % 64 = b := by
  rw [toNat_ofNat_lt (by omega)]; omega

theorem decodeRune_one {b : UInt8} (rest : List UInt8) (h : b.toNat < 0x80) :
    decodeRune (b :: rest) = (Char.ofNat b.toNat, 1) := by
  exact if_pos h

theorem decodeRune_two {a b : Nat} (rest : List UInt8) (ha : 2 ≤ a) (ha' : a < 32) (hb : b < 64) :
    decodeRune (.ofNat (0xC0 + a) :: .ofNat (0x80 + b) :: rest) = (Char.ofNat (a * 64 + b), 2) := by
  have e₀ := toNat_ofNat_lt (show 0xC0 + a < 256 by omega)
  rw [decodeRune, e₀, if_neg (by omega), decodeSeq.eq_def, seqLen_eq.1 (by omega) (by omega)]
  dsimp only
  rw [if_pos (isCont_ofNat hb), cont_mod hb, show (0xC0 + a) % 32 = a by omega]

theorem decodeRune_three {a b c : Nat} (rest : List UInt8) (ha : a < 16) (hb : b < 64)
    (hc : c < 64) (hr : 0x800 ≤ a * 4096 + b * 64 + c) (hs : a * 4096 + b * 64 + c < 0xD800 ∨
      0xDFFF < a * 4096 + b * 64 + c) :
    decodeRune (.ofNat (0xE0 + a) :: .ofNat (0x80 + b) :: .ofNat (0x80 + c) :: rest) =
      (Char.ofNat (a * 4096 + b * 64 + c), 3) := by
  have e₀ := toNat_ofNat_lt (show 0xE0 + a < 256 by omega)
  rw [decodeRune, e₀, if_neg (by omega), decodeSeq.eq_def, seqLen_eq.2.1 (by omega) (by omega)]
  dsimp only
  rw [cont_mod hb, cont_mod hc, show (0xE0 + a) % 16 = a by omega,
    if_pos ⟨isCont_ofNat hb, isCont_ofNat hc, hr, hs⟩]

theorem decodeRune_four {a b c d : Nat} (rest : List UInt8) (ha : a < 5) (hb : b < 64)
    (hc : c < 64) (hd : d < 64) (hr : 0x10000 ≤ a * 262144 + b * 4096 + c * 64 + d)
    (hs : a * 262144 + b * 4096 + c * 64 + d ≤ 0x10FFFF) :
    decodeRune (.ofNat (0xF0 + a) :: .ofNat (0x80 + b) :: .ofNat (0x80 + c) :: .ofNat (0x80 + d) :: rest) =
      (Char.ofNat (a * 262144 + b * 4096 + c * 64 + d), 4) := by
  have e₀ := toNat_ofNat_lt (show 0xF0 + a < 256 by omega)
  rw [decodeRune, e₀, if_neg (by omega), decodeSeq.eq_def, seqLen_eq.2.2 (by omega) (by omega)]
  dsimp only
  rw [cont_mod hb, cont_mod hc, cont_mod hd, show (0xF0 + a) % 8 = a by omega,
    if_pos ⟨isCont_ofNat hb, isCont_ofNat hc, isCont_ofNat hd, hr, hs⟩]

theorem decodeRune_encodeRune (c : Char) (rest : List UInt8) :
    decodeRune (encodeRune c ++ rest) = (c, (encodeRune c).length) := by
  have hv : c.toNat < 0xD800 ∨ 0xDFFF < c.toNat ∧ c.toNat < 0x110000 := c.valid
  have h₆₄ : ∀ x, x % 64 < 64 := fun x => Nat.mod_lt x (by decide)
  dsimp only [encodeRune]
  split_ifs with h₁ h₂ h₃
  · rw [List.singleton_append, decodeRune_one _ (by rw [toNat_ofNat_lt (by omega)]; exact h₁),
      toNat_ofNat_lt (by omega), Char.ofNat_toNat]
    rfl
  · have hn : c.toNat / 64 * 64 + c.toNat % 64 = c.toNat := Nat.div_add_mod' _ _
    rw [List.cons_append, List.singleton_append, decodeRune_two _ (by omega) (by omega) (h₆₄ _), hn,
      Char.ofNat_toNat]
    rfl
  · have hn : c.toNat / 4096 * 4096 + c.toNat / 64 % 64 * 64 + c.toNat % 64 = c.toNat := by omega
    rw [List.cons_append, List.cons_append, List.singleton_append,
      decodeRune_three _ (by omega) (h₆₄ _) (h₆₄ _) (by omega) (by omega), hn, Char.ofNat_toNat]
    rfl
  · have hn : c.toNat / 262144 * 262144 + c.toNat / 4096 % 64 * 4096 + c.toNat / 64 % 64 * 64 +
        c.toNat % 64 = c.toNat := by omega
    rw [List.cons_append, List.cons_append, List.cons_append, List.singleton_append,
      decodeRune_four _ (by omega) (h₆₄ _) (h₆₄ _) (h₆₄ _) (by omega) (by omega), hn, Char.ofNat_toNat]
    rfl

/-! ## Strings -/

/-- `hex` of `encoding/json`: the lower-case hexadecimal digit of `d < 16`. -/
def hexDigit (d : Nat) : UInt8 := .ofNat (if d < 10 then 0x30 + d else 0x57 + d)

/-- The value of a hexadecimal digit, of either case. -/
def hexVal (b : UInt8) : Option Nat :=
  let n := b.toNat
  if 0x30 ≤ n ∧ n ≤ 0x39 then some (n - 0x30)
  else if 0x61 ≤ n ∧ n ≤ 0x66 then some (n - 0x57)
  else if 0x41 ≤ n ∧ n ≤ 0x46 then some (n - 0x37) else none

/-- `htmlSafeSet[b]` for an ASCII byte `b`: printable and none of `"`, `\`, `<`, `>`, `&`. -/
def htmlSafe (b : UInt8) : Bool :=
  0x20 ≤ b.toNat && b != 0x22 && b != 0x5C && b != 0x3C && b != 0x3E && b != 0x26

/-- The letter of the short escape `appendString` writes for a byte: `\`, `"`, `b`, `f`, `n`,
`r`, `t`. -/
def shortEscape (b : UInt8) : Option UInt8 :=
  if b = 0x5C ∨ b = 0x22 then some b
  else if b = 0x08 then some 0x62
  else if b = 0x0C then some 0x66
  else if b = 0x0A then some 0x6E
  else if b = 0x0D then some 0x72
  else if b = 0x09 then some 0x74 else none

/-- What `appendString` writes for an ASCII byte outside `htmlSafeSet`: a short escape, or `\u00`
and two hexadecimal digits. -/
def escapeByte (b : UInt8) : List UInt8 :=
  match shortEscape b with
  | some x => [0x5C, x]
  | none => [0x5C, 0x75, 0x30, 0x30, hexDigit (b.toNat / 16), hexDigit (b.toNat % 16)]

/-- The loop of `appendString(dst, src, escapeHTML)` with `escapeHTML` set, as `json.Marshal`
calls it: the bytes it writes between the quotes. An ASCII byte is copied or escaped; a byte
that starts no well-formed sequence becomes `\ufffd`; U+2028 and U+2029 are escaped; every other
sequence is copied. `fuel` bounds the iterations, each of which takes a byte at least. -/
def stringBody : Nat → List UInt8 → List UInt8
  | 0, _ => []
  | _ + 1, [] => []
  | fuel + 1, b :: bs =>
    if b.toNat < 0x80 then
      (if htmlSafe b then [b] else escapeByte b) ++ stringBody fuel bs
    else
      match decodeRune (b :: bs) with
      | (c, size) =>
        if c = runeError ∧ size = 1 then [0x5C, 0x75, 0x66, 0x66, 0x66, 0x64] ++ stringBody fuel bs
        else if c = '\u2028' ∨ c = '\u2029' then
          [0x5C, 0x75, 0x32, 0x30, 0x32, hexDigit (c.toNat % 16)] ++ stringBody fuel ((b :: bs).drop size)
        else (b :: bs).take size ++ stringBody fuel ((b :: bs).drop size)

/-- `appendString` with `escapeHTML`: the quoted JSON string of the Go string `src`. -/
def quote (src : List UInt8) : List UInt8 := 0x22 :: stringBody src.length src ++ [0x22]

/-- The character a one-letter escape stands for: `\"`, `\\`, `\/`, `\b`, `\f`, `\n`, `\r`,
`\t`. -/
def unescape (x : UInt8) : Option Char :=
  if x = 0x22 then some '"' else if x = 0x5C then some '\\' else if x = 0x2F then some '/'
  else if x = 0x62 then some '\x08' else if x = 0x66 then some '\x0c'
  else if x = 0x6E then some '\n' else if x = 0x72 then some '\r'
  else if x = 0x74 then some '\t' else none

/-- `getu4`: the value of four hexadecimal digits. -/
def hex4 : List UInt8 → Option (Nat × List UInt8)
  | a :: b :: c :: d :: rest => do
    let a ← hexVal a
    let b ← hexVal b
    let c ← hexVal c
    let d ← hexVal d
    pure (a * 4096 + b * 256 + c * 16 + d, rest)
  | _ => none

/-- An escape after its backslash, as the scanner checks it and `unquote` reads it: a `\u` escape
of a surrogate takes the next `\u` escape with it when the two make a pair, and is `RuneError`
otherwise. -/
def readEscape : List UInt8 → Except String (Char × List UInt8)
  | [] => .error "unexpected end of JSON input"
  | x :: rest =>
    match unescape x with
    | some c => .ok (c, rest)
    | none =>
      if x = 0x75 then
        match hex4 rest with
        | none => .error "invalid character in \\u hexadecimal character escape"
        | some (u, r₁) =>
          if 0xD800 ≤ u ∧ u < 0xE000 then
            match r₁ with
            | 0x5C :: 0x75 :: r₂ =>
              match hex4 r₂ with
              | some (u₂, r₃) =>
                if u < 0xDC00 ∧ 0xDC00 ≤ u₂ ∧ u₂ < 0xE000 then
                  .ok (Char.ofNat (0x10000 + (u - 0xD800) * 0x400 + (u₂ - 0xDC00)), r₃)
                else .ok (runeError, r₁)
              | none => .ok (runeError, r₁)
            | _ => .ok (runeError, r₁)
          else .ok (Char.ofNat u, r₁)
      else .error "invalid character in string escape code"

/-- The characters of a JSON string up to its closing quote, as the scanner checks them and
`unquote` reads them, and the bytes after the quote. A control byte is refused; a byte that
starts no well-formed sequence is read as `RuneError`. -/
def readString : Nat → List UInt8 → Except String (List Char × List UInt8)
  | 0, _ => .error "unexpected end of JSON input"
  | _ + 1, [] => .error "unexpected end of JSON input"
  | fuel + 1, b :: bs =>
    if b = 0x22 then .ok ([], bs)
    else if b = 0x5C then
      match readEscape bs with
      | .ok (c, rest) => (readString fuel rest).map fun p => (c :: p.1, p.2)
      | .error e => .error e
    else if b.toNat < 0x20 then .error "invalid character in string literal"
    else
      match decodeRune (b :: bs) with
      | (c, size) => (readString fuel ((b :: bs).drop size)).map fun p => (c :: p.1, p.2)

example : quote [0x3C, 0xFF, 0xE2, 0x80, 0xA8, 0x0A, 0xC3, 0xA9] =
    [0x22, 0x5C, 0x75, 0x30, 0x30, 0x33, 0x63, 0x5C, 0x75, 0x66, 0x66, 0x66, 0x64, 0x5C, 0x75, 0x32,
      0x30, 0x32, 0x38, 0x5C, 0x6E, 0xC3, 0xA9, 0x22] := by decide

example : readString 20 [0x5C, 0x75, 0x64, 0x38, 0x33, 0x64, 0x5C, 0x75, 0x44, 0x45, 0x30, 0x30, 0x22] =
    .ok ([Char.ofNat 0x1F600], []) := by decide

/-- What `appendString` writes for the character `c` of a well-formed string. -/
def escapeChar (c : Char) : List UInt8 :=
  if c.toNat < 0x80 then
    if htmlSafe (.ofNat c.toNat) then [.ofNat c.toNat] else escapeByte (.ofNat c.toNat)
  else if c = '\u2028' ∨ c = '\u2029' then [0x5C, 0x75, 0x32, 0x30, 0x32, hexDigit (c.toNat % 16)]
  else encodeRune c

theorem encodeRune_ascii {c : Char} (h : c.toNat < 0x80) : encodeRune c = [.ofNat c.toNat] :=
  if_pos h

theorem encodeRune_multi {c : Char} (h : 0x80 ≤ c.toNat) :
    ∃ b bs, encodeRune c = b :: bs ∧ 0x80 ≤ b.toNat ∧ bs ≠ [] := by
  have hv : c.toNat < 0xD800 ∨ 0xDFFF < c.toNat ∧ c.toNat < 0x110000 := c.valid
  dsimp only [encodeRune]
  rw [if_neg (by omega)]
  split_ifs
  · exact ⟨_, _, rfl, by rw [toNat_ofNat_lt (by omega)]; omega, List.cons_ne_nil _ _⟩
  · exact ⟨_, _, rfl, by rw [toNat_ofNat_lt (by omega)]; omega, List.cons_ne_nil _ _⟩
  · exact ⟨_, _, rfl, by rw [toNat_ofNat_lt (by omega)]; omega, List.cons_ne_nil _ _⟩

theorem encodeRune_ne_nil (c : Char) : encodeRune c ≠ [] := by
  by_cases h : c.toNat < 0x80
  · rw [encodeRune_ascii h]; exact List.cons_ne_nil _ _
  · obtain ⟨b, bs, he, -⟩ := encodeRune_multi (Nat.not_lt.mp h)
    rw [he]; exact List.cons_ne_nil _ _

theorem stringBody_encodeRune (c : Char) (rest : List UInt8) (fuel : Nat) :
    stringBody (fuel + 1) (encodeRune c ++ rest) = escapeChar c ++ stringBody fuel rest := by
  by_cases h : c.toNat < 0x80
  · have hb : (UInt8.ofNat c.toNat).toNat < 0x80 := by rw [toNat_ofNat_lt (by omega)]; exact h
    rw [encodeRune_ascii h, escapeChar, if_pos h, List.singleton_append, stringBody, if_pos hb]
  · obtain ⟨b, bs, he, hb, hbs⟩ := encodeRune_multi (Nat.not_lt.mp h)
    have hd := decodeRune_encodeRune c rest
    have hl : (encodeRune c).length ≠ 1 := by rw [he]; simpa using hbs
    rw [he, List.cons_append] at hd
    rw [he, List.cons_append, stringBody, if_neg (by omega), hd, ← List.cons_append, ← he]
    dsimp only
    rw [if_neg fun h' => hl h'.2, escapeChar, if_neg h, List.drop_left, List.take_left]
    split_ifs <;> rfl

theorem stringBody_nil (fuel : Nat) : stringBody fuel [] = [] := by cases fuel <;> rfl

theorem stringBody_flatMap (cs : List Char) {fuel : Nat} (h : cs.length ≤ fuel) :
    stringBody fuel (cs.flatMap encodeRune) = cs.flatMap escapeChar := by
  induction cs generalizing fuel with
  | nil => exact stringBody_nil fuel
  | cons c cs ih =>
    obtain ⟨fuel, rfl⟩ : ∃ f, fuel = f + 1 := ⟨fuel - 1, by rw [List.length_cons] at h; omega⟩
    rw [List.flatMap_cons, List.flatMap_cons, stringBody_encodeRune, ih (by rw [List.length_cons] at h; omega)]

theorem length_le_flatMap (cs : List Char) : cs.length ≤ (cs.flatMap encodeRune).length := by
  induction cs with
  | nil => exact Nat.le_refl 0
  | cons c cs ih =>
    have := List.length_pos.mpr (encodeRune_ne_nil c)
    simp only [List.flatMap_cons, List.length_append, List.length_cons]
    omega

/-- The quoted JSON string of a well-formed Go string escapes its characters one by one. -/
theorem quote_goString (s : String) : quote (goString s) = 0x22 :: s.data.flatMap escapeChar ++ [0x22] := by
  rw [quote, goString, stringBody_flatMap _ (length_le_flatMap _)]

theorem hexVal_hexDigit_all : ∀ d : Fin 16, hexVal (hexDigit d) = some d.val := by decide

theorem unescape_shortEscape_all : ∀ b : Fin 128,
    (shortEscape (.ofNat b)).bind unescape = (shortEscape (.ofNat b)).map fun _ => Char.ofNat b := by
  decide

theorem readEscape_short {x : UInt8} {c : Char} (h : unescape x = some c) (rest : List UInt8) :
    readEscape (x :: rest) = .ok (c, rest) := by
  rw [readEscape, h]

theorem readEscape_u (a b c d : Nat) (ha : a < 16) (hb : b < 16) (hc : c < 16) (hd : d < 16)
    (hs : ¬(0xD800 ≤ a * 4096 + b * 256 + c * 16 + d ∧ a * 4096 + b * 256 + c * 16 + d < 0xE000))
    (rest : List UInt8) :
    readEscape (0x75 :: hexDigit a :: hexDigit b :: hexDigit c :: hexDigit d :: rest) =
      .ok (Char.ofNat (a * 4096 + b * 256 + c * 16 + d), rest) := by
  rw [readEscape, show unescape 0x75 = none from rfl, if_pos rfl]
  simp only [hex4, hexVal_hexDigit_all ⟨a, ha⟩, hexVal_hexDigit_all ⟨b, hb⟩,
    hexVal_hexDigit_all ⟨c, hc⟩, hexVal_hexDigit_all ⟨d, hd⟩, Option.bind_eq_bind, Option.some_bind]
  rw [Option.pure_def, if_neg hs]

theorem htmlSafe_spec {b : UInt8} (h : htmlSafe b = true) : b ≠ 0x22 ∧ b ≠ 0x5C ∧ 0x20 ≤ b.toNat := by
  simp only [htmlSafe, Bool.and_eq_true, decide_eq_true_eq, bne_iff_ne, ne_eq] at h
  exact ⟨h.1.1.1.1.2, h.1.1.1.2, h.1.1.1.1.1⟩

/-- A byte that is neither a quote, a backslash nor a control byte starts a character. -/
theorem readString_plain {b : UInt8} (bs : List UInt8) (fuel : Nat) (h₁ : b ≠ 0x22) (h₂ : b ≠ 0x5C)
    (h₃ : 0x20 ≤ b.toNat) : readString (fuel + 1) (b :: bs) =
      (readString fuel ((b :: bs).drop (decodeRune (b :: bs)).2)).map
        fun p => ((decodeRune (b :: bs)).1 :: p.1, p.2) := by
  rw [readString, if_neg h₁, if_neg h₂, if_neg (by omega)]

theorem readString_escape (bs : List UInt8) (fuel : Nat) :
    readString (fuel + 1) (0x5C :: bs) =
      match readEscape bs with
      | .ok (c, rest) => (readString fuel rest).map fun p => (c :: p.1, p.2)
      | .error e => .error e := by
  rw [readString, if_neg (by decide), if_pos rfl]

theorem readString_escapeChar (c : Char) (rest : List UInt8) (fuel : Nat) :
    readString (fuel + 1) (escapeChar c ++ rest) = (readString fuel rest).map fun p => (c :: p.1, p.2) := by
  have hc : ∀ {r}, r = c.toNat → Char.ofNat r = c := fun h => h ▸ Char.ofNat_toNat c
  unfold escapeChar
  split_ifs with h₁ h₂ h₃
  · obtain ⟨hq, hs, hp⟩ := htmlSafe_spec h₂
    rw [List.singleton_append, readString_plain _ _ hq hs hp,
      decodeRune_one _ (by rw [toNat_ofNat_lt (by omega)]; exact h₁), toNat_ofNat_lt (by omega),
      Char.ofNat_toNat]
    rfl
  · have hu := unescape_shortEscape_all ⟨c.toNat, h₁⟩
    unfold escapeByte
    split
    · rename_i x hx
      rw [hx, Option.some_bind, Option.map_some'] at hu
      rw [List.cons_append, List.singleton_append, readString_escape, readEscape_short hu,
        hc rfl]
    · have hn := toNat_ofNat_lt (show c.toNat < 256 by omega)
      simp only [List.cons_append, List.nil_append]
      rw [readString_escape, show (0x30 : UInt8) = hexDigit 0 from rfl, hn,
        readEscape_u 0 0 _ _ (by decide) (by decide) (by omega) (Nat.mod_lt _ (by decide)) (by omega),
        hc (by omega)]
  · have h₂₀ : c.toNat = 0x2028 ∨ c.toNat = 0x2029 := by rcases h₃ with rfl | rfl <;> decide
    simp only [List.cons_append, List.nil_append]
    rw [readString_escape, show (0x30 : UInt8) = hexDigit 0 from rfl,
      show (0x32 : UInt8) = hexDigit 2 from rfl,
      readEscape_u 2 0 2 _ (by decide) (by decide) (by decide) (Nat.mod_lt _ (by decide)) (by omega),
      hc (by omega)]
  · obtain ⟨b, bs, he, hb, -⟩ := encodeRune_multi (Nat.not_lt.mp h₁)
    have hd := decodeRune_encodeRune c rest
    rw [he, List.cons_append] at hd ⊢
    rw [readString_plain _ _ (fun e => by rw [e] at hb; exact absurd hb (by decide))
      (fun e => by rw [e] at hb; exact absurd hb (by decide)) (by omega), hd, ← List.cons_append,
      List.drop_left]

theorem readString_flatMap (cs : List Char) (rest : List UInt8) {fuel : Nat} (h : cs.length < fuel) :
    readString fuel (cs.flatMap escapeChar ++ 0x22 :: rest) = .ok (cs, rest) := by
  obtain ⟨fuel, rfl⟩ : ∃ f, fuel = f + 1 := ⟨fuel - 1, by omega⟩
  induction cs generalizing fuel with
  | nil => rw [List.flatMap_nil, List.nil_append, readString, if_pos rfl]
  | cons c cs ih =>
    obtain ⟨fuel, rfl⟩ : ∃ f, fuel = f + 1 := ⟨fuel - 1, by rw [List.length_cons] at h; omega⟩
    rw [List.flatMap_cons, List.append_assoc, readString_escapeChar, ih fuel (by rw [List.length_cons] at h; omega)]
    rfl

/-! ## Numbers -/

/-- A decimal digit. -/
def isDigit (b : UInt8) : Bool := 0x30 ≤ b.toNat && b.toNat ≤ 0x39

/-- The digits at the front of `bs`, and the bytes after them. -/
def spanDigits : List UInt8 → List UInt8 × List UInt8
  | [] => ([], [])
  | b :: bs => if isDigit b then ((b :: (spanDigits bs).1), (spanDigits bs).2) else ([], b :: bs)

/-- A value with one more decimal digit after it. -/
def digitStep (n : Nat) (d : UInt8) : Nat := n * 10 + (d.toNat - 0x30)

/-- The value of a run of decimal digits. -/
def digitsValue (ds : List UInt8) : Nat := ds.foldl digitStep 0

/-- The integer part of a number literal: `0`, or a digit from `1` to `9` and the digits after
it. -/
def readInt : List UInt8 → Except String (List UInt8 × List UInt8)
  | [] => .error "unexpected end of JSON input"
  | b :: r =>
    if b = 0x30 then .ok ([b], r)
    else if isDigit b then .ok (spanDigits (b :: r))
    else .error "invalid character in numeric literal"

/-- The fraction of a number literal: a point and one digit at least, or nothing. -/
def readFrac : List UInt8 → Except String (List UInt8 × List UInt8)
  | 0x2E :: r =>
    match spanDigits r with
    | ([], _) => .error "invalid character after decimal point in numeric literal"
    | (ds, r') => .ok (ds, r')
  | r => .ok ([], r)

/-- The exponent of a number literal: `e` or `E`, an optional sign and one digit at least; or
nothing. -/
def readExp : List UInt8 → Except String (Int × List UInt8)
  | [] => .ok (0, [])
  | e :: r =>
    if e = 0x65 ∨ e = 0x45 then
      let neg := r.head? = some 0x2D
      let r := if r.head? = some 0x2D ∨ r.head? = some 0x2B then r.tail else r
      match spanDigits r with
      | ([], _) => .error "invalid character in exponent of numeric literal"
      | (ds, r') => .ok (if neg then -(digitsValue ds : Int) else digitsValue ds, r')
    else .ok (0, e :: r)

/-- A number literal, `-?(0|[1-9][0-9]*)(\.[0-9]+)?([eE][+-]?[0-9]+)?`, read as the decimal
`mantissa * 10 ^ exponent` it denotes, and the bytes after it. -/
def readNumber (bs : List UInt8) : Except String (Int × Int × List UInt8) :=
  let neg := bs.head? = some 0x2D
  let bs := if neg then bs.tail else bs
  match readInt bs with
  | .error e => .error e
  | .ok (int, bs) =>
    match readFrac bs with
    | .error e => .error e
    | .ok (frac, bs) =>
      match readExp bs with
      | .error e => .error e
      | .ok (exp, bs) =>
        let m : Int := digitsValue (int ++ frac)
        .ok (if neg then -m else m, exp - frac.length, bs)

/-- The digits of `n`, most significant first, after those already in `acc`; `fuel` bounds the
number of digits. -/
def decimalAux : Nat → Nat → List UInt8 → List UInt8
  | 0, _, acc => acc
  | fuel + 1, n, acc =>
    if n < 10 then .ofNat (0x30 + n) :: acc
    else decimalAux fuel (n / 10) (.ofNat (0x30 + n % 10) :: acc)

/-- `strconv.FormatInt(n, 10)`: the decimal text of an integer. -/
def formatInt (n : Int) : List UInt8 :=
  (if n < 0 then [0x2D] else []) ++ decimalAux (n.natAbs + 1) n.natAbs []

example : readNumber [0x2D, 0x31, 0x32, 0x2E, 0x35, 0x65, 0x2D, 0x33, 0x2C] = .ok (-125, -4, [0x2C]) := by
  decide

example : readNumber [0x30, 0x31] = .ok (0, 0, [0x31]) := by decide

/-- What may follow a value inside an array or an object, or at the end of the input: a comma,
a closing bracket or brace, or nothing. -/
def Delimited : List UInt8 → Prop
  | [] => True
  | b :: _ => b = 0x2C ∨ b = 0x5D ∨ b = 0x7D

theorem Delimited.comma (r : List UInt8) : Delimited (0x2C :: r) := .inl rfl

theorem Delimited.bracket (r : List UInt8) : Delimited (0x5D :: r) := .inr (.inl rfl)

theorem Delimited.brace (r : List UInt8) : Delimited (0x7D :: r) := .inr (.inr rfl)

theorem foldl_decimalAux {fuel n : Nat} (acc : List UInt8) (h : n < fuel) :
    (decimalAux fuel n acc).foldl digitStep 0 = acc.foldl digitStep n := by
  induction fuel generalizing n acc with
  | zero => omega
  | succ fuel ih =>
    rw [decimalAux]
    split_ifs with h₁
    · rw [List.foldl_cons, digitStep, toNat_ofNat_lt (by omega)]
      congr 1
      omega
    · rw [ih _ (by omega), List.foldl_cons, digitStep, toNat_ofNat_lt (by omega)]
      congr 1
      omega

theorem isDigit_ofNat {d : Nat} (h : d < 10) : isDigit (.ofNat (0x30 + d)) := by
  simp only [isDigit, toNat_ofNat_lt (show 0x30 + d < 256 by omega), Bool.and_eq_true,
    decide_eq_true_eq]
  omega

theorem isDigit_decimalAux {fuel n : Nat} {acc : List UInt8} (h : ∀ d ∈ acc, isDigit d) :
    ∀ d ∈ decimalAux fuel n acc, isDigit d := by
  induction fuel generalizing n acc with
  | zero => exact h
  | succ fuel ih =>
    rw [decimalAux]
    split_ifs with h₁
    · exact List.forall_mem_cons.mpr ⟨isDigit_ofNat h₁, h⟩
    · exact ih (List.forall_mem_cons.mpr ⟨isDigit_ofNat (Nat.mod_lt _ (by decide)), h⟩)

theorem decimalAux_head {fuel n : Nat} (acc : List UInt8) (h : 0 < n) (hf : n < fuel) :
    ∃ d t, decimalAux fuel n acc = d :: t ∧ d ≠ 0x30 := by
  induction fuel generalizing n acc with
  | zero => omega
  | succ fuel ih =>
    rw [decimalAux]
    split_ifs with h₁
    · refine ⟨_, _, rfl, fun e => ?_⟩
      have : 0x30 + n = 0x30 := (toNat_ofNat_lt (by omega)).symm.trans (congrArg UInt8.toNat e)
      omega
    · exact ih _ (by omega) (by omega)

theorem spanDigits_append {ds : List UInt8} (hd : ∀ d ∈ ds, isDigit d) {rest : List UInt8}
    (hr : Delimited rest) : spanDigits (ds ++ rest) = (ds, rest) := by
  induction ds with
  | nil =>
    cases rest with
    | nil => rfl
    | cons b r => rcases hr with rfl | rfl | rfl <;> rfl
  | cons d ds ih =>
    rw [List.cons_append, spanDigits, if_pos (hd d (List.mem_cons_self d ds)),
      ih fun x hx => hd x (List.mem_cons_of_mem d hx)]

theorem readFrac_delimited {rest : List UInt8} (hr : Delimited rest) : readFrac rest = .ok ([], rest) := by
  cases rest with
  | nil => rfl
  | cons b r => rcases hr with rfl | rfl | rfl <;> rfl

theorem readExp_delimited {rest : List UInt8} (hr : Delimited rest) : readExp rest = .ok (0, rest) := by
  cases rest with
  | nil => rfl
  | cons b r => rcases hr with rfl | rfl | rfl <;> rfl

theorem decimal_cons (n : Nat) :
    ∃ d t, decimalAux (n + 1) n [] = d :: t ∧ isDigit d ∧ (0 < n → d ≠ 0x30) := by
  rcases Nat.eq_zero_or_pos n with rfl | hn
  · exact ⟨_, _, rfl, rfl, fun h => absurd h (Nat.lt_irrefl 0)⟩
  · obtain ⟨d, t, he, hne⟩ := decimalAux_head [] hn (Nat.lt_succ_self n)
    have hd := @isDigit_decimalAux (n + 1) n []
      (fun _ h => absurd h (List.not_mem_nil _)) d (by rw [he]; exact List.mem_cons_self d t)
    exact ⟨d, t, he, hd, fun _ => hne⟩

/-- The digits of a natural number, then a delimiter, read back as that number. -/
theorem readNumber_decimal (n : Nat) {rest : List UInt8} (hr : Delimited rest) :
    readInt (decimalAux (n + 1) n [] ++ rest) = .ok (decimalAux (n + 1) n [], rest) ∧
      digitsValue (decimalAux (n + 1) n []) = n := by
  refine ⟨?_, foldl_decimalAux [] (Nat.lt_succ_self n)⟩
  have hd := @isDigit_decimalAux (n + 1) n [] (fun _ h => absurd h (List.not_mem_nil _))
  rcases Nat.eq_zero_or_pos n with rfl | hn
  · rfl
  · obtain ⟨d, t, he, -, hne⟩ := decimal_cons n
    rw [he] at hd ⊢
    rw [List.cons_append, readInt, if_neg (hne hn), if_pos (hd d (List.mem_cons_self d t)),
      ← List.cons_append, spanDigits_append hd hr]

/-- `formatInt` is read back by the number reader, with no fraction and no exponent. -/
theorem readNumber_formatInt (n : Int) {rest : List UInt8} (hr : Delimited rest) :
    readNumber (formatInt n ++ rest) = .ok (n, 0, rest) := by
  obtain ⟨hi, hv⟩ := readNumber_decimal n.natAbs hr
  by_cases hn : n < 0
  · rw [formatInt, if_pos hn, List.singleton_append, List.cons_append, readNumber]
    simp only [List.head?_cons, List.tail_cons, if_true, hi, readFrac_delimited hr,
      readExp_delimited hr, List.append_nil, hv, List.length_nil]
    congr 2
    omega
  · obtain ⟨d, t, he, hd, -⟩ := decimal_cons n.natAbs
    have hh : (decimalAux (n.natAbs + 1) n.natAbs [] ++ rest).head? ≠ some 0x2D := by
      rw [he, List.cons_append, List.head?_cons]
      rintro ⟨⟩
      exact absurd hd (by decide)
    rw [formatInt, if_neg hn, List.nil_append, readNumber]
    simp only [hh, if_false, hi, readFrac_delimited hr, readExp_delimited hr, List.append_nil, hv,
      List.length_nil]
    congr 2
    omega

/-! ## Values -/

/-- A JSON value as the decoder reads it. A number is the decimal `mantissa * 10 ^ exponent` its
literal denotes, and a string is the text `unquote` gives, which is always well formed. -/
inductive Value where
  | null
  | bool (b : Bool)
  | number (mantissa exponent : Int)
  | string (s : String)
  | array (elems : List Value)
  | object (members : List (String × Value))

/-- `isSpace` of the scanner: space, tab, line feed, carriage return. -/
def isWs (b : UInt8) : Bool := b = 0x20 || b = 0x09 || b = 0x0A || b = 0x0D

/-- The bytes after the whitespace at the front of `bs`. -/
def skipWs : List UInt8 → List UInt8
  | [] => []
  | b :: bs => if isWs b then skipWs bs else b :: bs

/-- The value a literal `true`, `false` or `null` stands for, once its first byte is read and
the bytes `lit` of the rest of it are there. -/
def readLiteral (lit : List UInt8) (v : Value) (r : List UInt8) : Except String (Value × List UInt8) :=
  if lit.isPrefixOf r then .ok (v, r.drop lit.length) else .error "invalid character in literal"

mutual
/-- A value after optional whitespace, and the bytes after it. `fuel` bounds the calls, each of
which takes a byte at least. -/
def parseValue : Nat → List UInt8 → Except String (Value × List UInt8)
  | 0, _ => .error "unexpected end of JSON input"
  | fuel + 1, bs =>
    match skipWs bs with
    | [] => .error "unexpected end of JSON input"
    | b :: r =>
      if b = 0x22 then (readString fuel r).map fun p => (.string ⟨p.1⟩, p.2)
      else if b = 0x5B then
        if (skipWs r).head? = some 0x5D then .ok (.array [], (skipWs r).tail)
        else parseElements fuel r []
      else if b = 0x7B then
        if (skipWs r).head? = some 0x7D then .ok (.object [], (skipWs r).tail)
        else parseMembers fuel r []
      else if b = 0x74 then readLiteral [0x72, 0x75, 0x65] (.bool true) r
      else if b = 0x66 then readLiteral [0x61, 0x6C, 0x73, 0x65] (.bool false) r
      else if b = 0x6E then readLiteral [0x75, 0x6C, 0x6C] .null r
      else if b = 0x2D ∨ isDigit b then
        (readNumber (b :: r)).map fun p => (.number p.1 p.2.1, p.2.2)
      else .error "invalid character looking for beginning of value"

/-- The elements of an array after its first bracket, those already read in `acc`, and the
bytes after its closing bracket. -/
def parseElements : Nat → List UInt8 → List Value → Except String (Value × List UInt8)
  | 0, _, _ => .error "unexpected end of JSON input"
  | fuel + 1, bs, acc =>
    match parseValue fuel bs with
    | .error e => .error e
    | .ok (v, r) =>
      match skipWs r with
      | [] => .error "unexpected end of JSON input"
      | b :: r' =>
        if b = 0x2C then parseElements fuel r' (acc ++ [v])
        else if b = 0x5D then .ok (.array (acc ++ [v]), r')
        else .error "invalid character after array element"

/-- The members of an object after its first brace, those already read in `acc`, and the bytes
after its closing brace. -/
def parseMembers : Nat → List UInt8 → List (String × Value) → Except String (Value × List UInt8)
  | 0, _, _ => .error "unexpected end of JSON input"
  | fuel + 1, bs, acc =>
    match skipWs bs with
    | [] => .error "unexpected end of JSON input"
    | b :: r =>
      if b ≠ 0x22 then .error "invalid character looking for beginning of object key string"
      else
        match readString fuel r with
        | .error e => .error e
        | .ok (k, r) =>
          match skipWs r with
          | [] => .error "unexpected end of JSON input"
          | c :: r =>
            if c ≠ 0x3A then .error "invalid character after object key"
            else
              match parseValue fuel r with
              | .error e => .error e
              | .ok (v, r) =>
                match skipWs r with
                | [] => .error "unexpected end of JSON input"
                | d :: r' =>
                  if d = 0x2C then parseMembers fuel r' (acc ++ [(⟨k⟩, v)])
                  else if d = 0x7D then .ok (.object (acc ++ [(⟨k⟩, v)]), r')
                  else .error "invalid character after object key:value pair"
end

/-- `json.Unmarshal`'s reading of its input: one value, and nothing but whitespace after it. -/
def parse (bs : List UInt8) : Except String Value :=
  match parseValue (bs.length + 1) bs with
  | .error e => .error e
  | .ok (v, r) => if skipWs r = [] then .ok v else .error "invalid character after top-level value"

/-! ## Writing -/

/-- The texts of `xs` with the byte `sep` between each two. -/
def joinWith (sep : UInt8) : List (List UInt8) → List UInt8
  | [] => []
  | [x] => x
  | x :: xs => x ++ sep :: joinWith sep xs

/-- A JSON array of the texts of its elements. -/
def writeArray (items : List (List UInt8)) : List UInt8 := 0x5B :: joinWith 0x2C items ++ [0x5D]

/-- A JSON object of its members: a key, which `appendString` writes, and the text of its value. -/
def writeObject (members : List (List UInt8 × List UInt8)) : List UInt8 :=
  0x7B :: joinWith 0x2C (members.map fun m => quote m.1 ++ 0x3A :: m.2) ++ [0x7D]

/-- The text of `null`. -/
def writeNull : List UInt8 := [0x6E, 0x75, 0x6C, 0x6C]

/-! ## Reading what was written -/

theorem skipWs_cons {b : UInt8} (t : List UInt8) (h : isWs b = false) : skipWs (b :: t) = b :: t := by
  rw [skipWs, if_neg (by rw [h]; decide)]

/-- `bs` is the text of the value `v`: it starts with a byte that is neither whitespace nor a
closing bracket or brace, and the parser reads `v` from it and stops right after it, with any
fuel above its length and whatever delimited bytes follow. -/
structure Reads (bs : List UInt8) (v : Value) : Prop where
  head : ∃ b t, bs = b :: t ∧ isWs b = false ∧ b ≠ 0x5D ∧ b ≠ 0x7D
  parse : ∀ fuel rest, bs.length < fuel → Delimited rest → parseValue fuel (bs ++ rest) = .ok (v, rest)

theorem escapeChar_ne_nil (c : Char) : escapeChar c ≠ [] := by
  unfold escapeChar escapeByte
  split_ifs
  · exact List.cons_ne_nil _ _
  · split <;> exact List.cons_ne_nil _ _
  · exact List.cons_ne_nil _ _
  · exact encodeRune_ne_nil c

theorem length_le_flatMap_escapeChar (cs : List Char) : cs.length ≤ (cs.flatMap escapeChar).length := by
  induction cs with
  | nil => exact Nat.le_refl 0
  | cons c cs ih =>
    have := List.length_pos.mpr (escapeChar_ne_nil c)
    simp only [List.flatMap_cons, List.length_append, List.length_cons]
    omega

theorem reads_quote (s : String) : Reads (quote (goString s)) (.string s) := by
  rw [quote_goString]
  refine ⟨⟨_, _, rfl, rfl, by decide, by decide⟩, fun fuel rest hf _ => ?_⟩
  have hl := length_le_flatMap_escapeChar s.data
  obtain ⟨fuel, rfl⟩ : ∃ f, fuel = f + 1 := ⟨fuel - 1, by simp only [List.length_cons, List.length_append, List.length_singleton] at hf; omega⟩
  simp only [List.cons_append]
  rw [parseValue, skipWs_cons _ (by decide)]
  simp only [if_true]
  rw [List.append_assoc, List.singleton_append, readString_flatMap _ _ (by simp only [List.length_cons, List.length_append, List.length_singleton] at hf; omega)]
  rfl

/-- The lone byte `0xFF` starts no UTF-8 sequence: `appendString` writes it as `\ufffd`, which
is read back as `U+FFFD`. -/
theorem reads_quote_ff : Reads (quote [0xFF]) (.string "\uFFFD") := by
  have hq : quote [0xFF] =
      [0x22, 0x5C, 0x75, hexDigit 15, hexDigit 15, hexDigit 15, hexDigit 13, 0x22] := by decide
  refine ⟨⟨_, _, hq, rfl, by decide, by decide⟩, fun fuel rest hf _ => ?_⟩
  obtain ⟨fuel, rfl⟩ : ∃ f, fuel = f + 3 := ⟨fuel - 3, by rw [hq] at hf; simp at hf; omega⟩
  rw [hq, List.cons_append, parseValue, skipWs_cons _ (by decide)]
  simp only [if_true, List.cons_append, List.nil_append]
  rw [readString_escape, readEscape_u 15 15 15 13 (by decide) (by decide) (by decide) (by decide)
    (by decide)]
  rfl

theorem isDigit_spec {b : UInt8} (h : isDigit b) : 0x30 ≤ b.toNat ∧ b.toNat ≤ 0x39 := by
  simpa [isDigit] using h

theorem number_head {b : UInt8} (h : b = 0x2D ∨ isDigit b) :
    isWs b = false ∧ b ≠ 0x22 ∧ b ≠ 0x5B ∧ b ≠ 0x5D ∧ b ≠ 0x7B ∧ b ≠ 0x7D ∧ b ≠ 0x74 ∧
      b ≠ 0x66 ∧ b ≠ 0x6E := by
  rcases h with rfl | h
  · decide
  · have := isDigit_spec h
    have ne : ∀ x : UInt8, (x.toNat < 0x30 ∨ 0x39 < x.toNat) → b ≠ x := fun x hx e => by
      subst e; omega
    simp only [isWs, Bool.or_eq_false_iff, decide_eq_false_iff_not]
    refine ⟨⟨⟨⟨ne _ (by decide), ne _ (by decide)⟩, ne _ (by decide)⟩, ne _ (by decide)⟩,
      ne _ (by decide), ne _ (by decide), ne _ (by decide), ne _ (by decide), ne _ (by decide),
      ne _ (by decide), ne _ (by decide), ne _ (by decide)⟩

theorem formatInt_cons (n : Int) : ∃ b t, formatInt n = b :: t ∧ (b = 0x2D ∨ isDigit b) := by
  unfold formatInt
  split_ifs
  · exact ⟨_, _, rfl, .inl rfl⟩
  · obtain ⟨d, t, he, hd, -⟩ := decimal_cons n.natAbs
    exact ⟨d, t, by rw [he]; rfl, .inr hd⟩

theorem reads_formatInt (n : Int) : Reads (formatInt n) (.number n 0) := by
  obtain ⟨b, t, he, hb⟩ := formatInt_cons n
  obtain ⟨hw, h₁, h₂, h₃, h₄, h₅, h₆, h₇, h₈⟩ := number_head hb
  refine ⟨⟨b, t, he, hw, h₃, h₅⟩, fun fuel rest hf hr => ?_⟩
  obtain ⟨fuel, rfl⟩ : ∃ f, fuel = f + 1 := ⟨fuel - 1, by omega⟩
  have hn := readNumber_formatInt n hr
  rw [he, List.cons_append] at hn ⊢
  rw [parseValue, skipWs_cons _ hw]
  simp only [h₁, h₂, h₄, h₆, h₇, h₈, if_false, if_pos hb, hn]
  rfl

theorem reads_null : Reads writeNull .null :=
  ⟨⟨_, _, rfl, rfl, by decide, by decide⟩, fun fuel rest hf _ => by
    obtain ⟨fuel, rfl⟩ : ∃ f, fuel = f + 1 := ⟨fuel - 1, by simp [writeNull] at hf; omega⟩
    rw [writeNull, List.cons_append, parseValue, skipWs_cons _ (by decide)]
    simp only [show (0x6E : UInt8) ≠ 0x22 by decide, show (0x6E : UInt8) ≠ 0x5B by decide,
      show (0x6E : UInt8) ≠ 0x7B by decide, show (0x6E : UInt8) ≠ 0x74 by decide,
      show (0x6E : UInt8) ≠ 0x66 by decide, if_false, if_true, readLiteral]
    rw [if_pos (by simp [List.isPrefixOf])]
    rfl⟩

theorem joinWith_cons_cons (sep : UInt8) (x y : List UInt8) (ys : List (List UInt8)) :
    joinWith sep (x :: y :: ys) = x ++ sep :: joinWith sep (y :: ys) := rfl

theorem parseElements_joinWith {items : List (List UInt8)} {vs : List Value}
    (h : List.Forall₂ Reads items vs) (hne : items ≠ []) {fuel : Nat} (acc : List Value)
    (rest : List UInt8) (hf : (joinWith 0x2C items).length + 1 < fuel) :
    parseElements fuel (joinWith 0x2C items ++ 0x5D :: rest) acc = .ok (.array (acc ++ vs), rest) := by
  induction h generalizing fuel acc with
  | nil => exact absurd rfl hne
  | @cons x v xs vs hx hxs ih =>
    obtain ⟨fuel, rfl⟩ : ∃ f, fuel = f + 1 := ⟨fuel - 1, by omega⟩
    cases hxs with
    | nil =>
      rw [show joinWith 0x2C [x] = x from rfl] at hf ⊢
      rw [parseElements, hx.parse fuel _ (by omega) (.bracket rest)]
      rfl
    | @cons y w ys ws hy hys =>
      have hl : (joinWith 0x2C (x :: y :: ys)).length =
          x.length + 1 + (joinWith 0x2C (y :: ys)).length := by
        simp only [joinWith, List.length_append, List.length_cons]; omega
      rw [joinWith_cons_cons, List.append_assoc, List.cons_append, parseElements,
        hx.parse fuel _ (by omega) (.comma _)]
      dsimp only
      rw [@skipWs_cons 0x2C _ rfl]
      dsimp only
      rw [if_pos rfl, ih (List.cons_ne_nil y ys) (acc ++ [v]) (by omega), List.append_assoc]
      rfl

theorem Delimited.isWs_eq_false {d : UInt8} {r : List UInt8} (h : Delimited (d :: r)) : isWs d = false := by
  rcases h with rfl | rfl | rfl <;> rfl

theorem length_joinWith_cons_cons (sep : UInt8) (x y : List UInt8) (ys : List (List UInt8)) :
    (joinWith sep (x :: y :: ys)).length = x.length + 1 + (joinWith sep (y :: ys)).length := by
  rw [joinWith_cons_cons, List.length_append, List.length_cons]
  omega

/-- `parseMembers` reads one member `"k":x` and looks at the byte after it. -/
theorem parseMembers_member {k : String} {x : List UInt8} {v : Value} (hx : Reads x v) {fuel : Nat}
    (acc : List (String × Value)) {d : UInt8} {r : List UInt8} (hd : Delimited (d :: r))
    (hf : (quote (goString k) ++ 0x3A :: x).length < fuel) :
    parseMembers (fuel + 1) (quote (goString k) ++ 0x3A :: x ++ d :: r) acc =
      if d = 0x2C then parseMembers fuel r (acc ++ [(k, v)])
      else if d = 0x7D then .ok (.object (acc ++ [(k, v)]), r)
      else .error "invalid character after object key:value pair" := by
  have hk := length_le_flatMap_escapeChar k.data
  rw [quote_goString] at hf ⊢
  simp only [List.cons_append, List.append_assoc, List.singleton_append, List.nil_append,
    List.length_cons, List.length_append] at hf ⊢
  rw [parseMembers, @skipWs_cons 0x22 _ rfl]
  dsimp only
  rw [if_neg (not_not.mpr rfl), readString_flatMap _ _ (by omega)]
  dsimp only
  rw [@skipWs_cons 0x3A _ rfl]
  dsimp only
  rw [if_neg (not_not.mpr rfl), hx.parse fuel _ (by omega) hd]
  dsimp only
  rw [skipWs_cons _ hd.isWs_eq_false]

theorem parseMembers_joinWith {members : List (String × List UInt8)} {vs : List (String × Value)}
    (h : List.Forall₂ (fun m v => m.1 = v.1 ∧ Reads m.2 v.2) members vs) (hne : members ≠ [])
    {fuel : Nat} (acc : List (String × Value)) (rest : List UInt8)
    (hf : (joinWith 0x2C (members.map fun m => quote (goString m.1) ++ 0x3A :: m.2)).length + 1 < fuel) :
    parseMembers fuel (joinWith 0x2C (members.map fun m => quote (goString m.1) ++ 0x3A :: m.2) ++
      0x7D :: rest) acc = .ok (.object (acc ++ vs), rest) := by
  induction h generalizing fuel acc with
  | nil => exact absurd rfl hne
  | @cons m v ms vs hm hms ih =>
    obtain ⟨fuel, rfl⟩ : ∃ f, fuel = f + 1 := ⟨fuel - 1, by omega⟩
    obtain ⟨k, x⟩ := m
    obtain ⟨k', v⟩ := v
    obtain ⟨rfl, hx⟩ := hm
    dsimp only at hx
    cases hms with
    | nil =>
      simp only [List.map_cons, List.map_nil, joinWith] at hf ⊢
      rw [parseMembers_member hx acc (.brace rest) (by omega), if_neg (by decide), if_pos rfl]
    | @cons n w ns ws hn hns =>
      simp only [List.map_cons, length_joinWith_cons_cons] at hf ih ⊢
      rw [joinWith_cons_cons, List.append_assoc, List.cons_append,
        parseMembers_member hx acc (.comma _) (by omega), if_pos rfl,
        ih (List.cons_ne_nil n ns) (acc ++ [(k, v)]) (by omega), List.append_assoc]
      rfl

theorem joinWith_cons (sep : UInt8) (x : List UInt8) (xs : List (List UInt8)) :
    ∃ s, joinWith sep (x :: xs) = x ++ s := by
  cases xs with
  | nil => exact ⟨[], (List.append_nil x).symm⟩
  | cons y ys => exact ⟨_, joinWith_cons_cons sep x y ys⟩

theorem reads_writeArray {items : List (List UInt8)} {vs : List Value}
    (h : List.Forall₂ Reads items vs) : Reads (writeArray items) (.array vs) := by
  refine ⟨⟨_, _, rfl, rfl, by decide, by decide⟩, fun fuel rest hf _ => ?_⟩
  obtain ⟨fuel, rfl⟩ : ∃ f, fuel = f + 1 := ⟨fuel - 1, by omega⟩
  simp only [writeArray, List.cons_append, List.append_assoc, List.singleton_append,
    List.nil_append, List.length_cons, List.length_append, List.length_singleton] at hf ⊢
  rw [parseValue, @skipWs_cons 0x5B _ rfl]
  dsimp only
  rw [if_neg (by decide), if_pos rfl]
  cases h with
  | nil => rfl
  | @cons x v xs vs' hx hxs =>
    obtain ⟨b, t, rfl, hw, h₁, -⟩ := hx.head
    obtain ⟨s, hs⟩ := joinWith_cons 0x2C (b :: t) xs
    have hsk : skipWs (joinWith 0x2C ((b :: t) :: xs) ++ 0x5D :: rest) =
        joinWith 0x2C ((b :: t) :: xs) ++ 0x5D :: rest := by
      rw [hs, List.cons_append, List.cons_append, skipWs_cons _ hw]
    have hne : (joinWith 0x2C ((b :: t) :: xs) ++ 0x5D :: rest).head? ≠ some 0x5D := by
      rw [hs, List.cons_append, List.cons_append, List.head?_cons]
      exact fun e => h₁ (Option.some.inj e)
    rw [hsk, if_neg hne, parseElements_joinWith (.cons hx hxs) (List.cons_ne_nil _ xs) [] rest (by omega)]
    rfl

theorem reads_writeObject {members : List (String × List UInt8)} {vs : List (String × Value)}
    (h : List.Forall₂ (fun m v => m.1 = v.1 ∧ Reads m.2 v.2) members vs) :
    Reads (writeObject (members.map fun m => (goString m.1, m.2))) (.object vs) := by
  refine ⟨⟨_, _, rfl, rfl, by decide, by decide⟩, fun fuel rest hf _ => ?_⟩
  obtain ⟨fuel, rfl⟩ : ∃ f, fuel = f + 1 := ⟨fuel - 1, by omega⟩
  simp only [writeObject, List.map_map, Function.comp_def, List.cons_append, List.append_assoc,
    List.singleton_append, List.nil_append, List.length_cons, List.length_append,
    List.length_singleton] at hf ⊢
  rw [parseValue, @skipWs_cons 0x7B _ rfl]
  dsimp only
  rw [if_neg (by decide), if_neg (by decide), if_pos rfl]
  cases h with
  | nil => rfl
  | @cons m v ms vs' hm hms =>
    obtain ⟨s, hs⟩ := joinWith_cons 0x2C (quote (goString m.1) ++ 0x3A :: m.2)
      (ms.map fun m => quote (goString m.1) ++ 0x3A :: m.2)
    have hsk : skipWs (joinWith 0x2C ((m :: ms).map fun m => quote (goString m.1) ++ 0x3A :: m.2) ++
        0x7D :: rest) = joinWith 0x2C ((m :: ms).map fun m => quote (goString m.1) ++ 0x3A :: m.2) ++
          0x7D :: rest := by
      rw [List.map_cons, hs, quote]
      rfl
    have hne : (joinWith 0x2C ((m :: ms).map fun m => quote (goString m.1) ++ 0x3A :: m.2) ++
        0x7D :: rest).head? ≠ some 0x7D := by
      rw [List.map_cons, hs, quote]
      exact fun e => absurd (Option.some.inj e) (by decide)
    rw [hsk, if_neg hne, parseMembers_joinWith (.cons hm hms) (List.cons_ne_nil _ ms) [] rest (by omega)]
    rfl

/-- A text the parser reads `v` from, alone, is what `json.Unmarshal` reads as `v`. -/
theorem parse_of_reads {bs : List UInt8} {v : Value} (h : Reads bs v) : parse bs = .ok v := by
  have hp := h.parse (bs.length + 1) [] (Nat.lt_succ_self _) trivial
  rw [List.append_nil] at hp
  rw [parse, hp]
  rfl

end Json
end ApiGateway
