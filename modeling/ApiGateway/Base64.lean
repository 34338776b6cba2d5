import Mathlib.Data.List.Basic
import Mathlib.Data.List.Nodup

/-!
# ApiGateway.Base64

`base64.RawURLEncoding` of Go's `encoding/base64`, the encoding of every segment of a JWT: the
URL-safe alphabet, no padding. `EncodeToString` writes four characters for each three bytes and
two or three for a last group of one or two; `DecodeString` skips `\r` and `\n`, refuses any
other character outside the alphabet (`=` among them), and refuses a last group of one
character. It does not check that the unused bits of a last group are zero.

* `decodeString_encodeToString`: decoding gives back the encoded bytes.
* `dot_not_mem_encodeToString`, `space_not_mem_encodeToString`: an encoded text has no `.`, the
  separator of a JWT, and no space.
-/

namespace ApiGateway
namespace Base64

/-- The alphabet of `RawURLEncoding`. -/
def alphabet : List Char :=
  "ABCDEFGHIJKLMNOPQRSTUVWXYZabcdefghijklmnopqrstuvwxyz0123456789-_".toList

/-- The character of a six-bit value. -/
def encodeChar (x : Nat) : Char := alphabet.getD x 'A'

/-- The six-bit value of a character of the alphabet. -/
def decodeChar (c : Char) : Option Nat := alphabet.indexOf? c

/-- The six-bit values `EncodeToString` writes, four for every three bytes. -/
def sextets : List UInt8 → List Nat
  | a :: b :: c :: rest =>
    a.toNat / 4 :: (a.toNat % 4 * 16 + b.toNat / 16) :: (b.toNat % 16 * 4 + c.toNat / 64) ::
      c.toNat % 64 :: sextets rest
  | [a, b] => [a.toNat / 4, a.toNat % 4 * 16 + b.toNat / 16, b.toNat % 16 * 4]
  | [a] => [a.toNat / 4, a.toNat % 4 * 16]
  | [] => []

/-- `RawURLEncoding.EncodeToString(src)`. -/
def encodeToString (src : List UInt8) : List Char := (sextets src).map encodeChar

/-- The six-bit values of a text, skipping `\r` and `\n`; none at a character outside the
alphabet. -/
def decodeSextets : List Char → Option (List Nat)
  | [] => some []
  | c :: cs =>
    if c = '\r' ∨ c = '\n' then decodeSextets cs
    else (decodeChar c).bind fun x => (decodeSextets cs).map (x :: ·)

/-- The bytes of the six-bit values, three for every four; none for a last group of one. -/
def decodeGroups : List Nat → Option (List UInt8)
  | a :: b :: c :: d :: rest =>
    (decodeGroups rest).map fun bs =>
      UInt8.ofNat (a * 4 + b / 16) :: UInt8.ofNat (b % 16 * 16 + c / 4) :: UInt8.ofNat (c % 4 * 64 + d) :: bs
  | [a, b, c] => some [UInt8.ofNat (a * 4 + b / 16), UInt8.ofNat (b % 16 * 16 + c / 4)]
  | [a, b] => some [UInt8.ofNat (a * 4 + b / 16)]
  | [_] => none
  | [] => some []

/-- `RawURLEncoding.DecodeString(s)`; none when it returns an error. -/
def decodeString (s : List Char) : Option (List UInt8) := (decodeSextets s).bind decodeGroups

theorem toNat_lt (a : UInt8) : a.toNat < 256 := a.toNat_lt_size

theorem alphabet_nodup : alphabet.Nodup := List.Nodup.of_map Char.toNat (by decide)

/-- In a list without repeats, the first index of the element at `i` is `i`. -/
theorem indexOf?_getElem {l : List Char} (hl : l.Nodup) {i : Nat} (hi : i < l.length) :
    l.indexOf? l[i] = some i := by
  rw [List.indexOf?, List.findIdx?_eq_some_iff_getElem]
  refine ⟨hi, beq_self_eq_true _, fun j hj => ?_⟩
  rw [beq_iff_eq, hl.getElem_inj_iff]
  omega

theorem decodeChar_encodeChar {x : Nat} (hx : x < 64) : decodeChar (encodeChar x) = some x := by
  have hl : x < alphabet.length := hx
  rw [decodeChar, encodeChar, List.getD_eq_getElem?_getD, List.getElem?_eq_getElem hl,
    Option.getD_some, indexOf?_getElem alphabet_nodup hl]

theorem encodeChar_ne_all : ∀ x : Fin 64, encodeChar x ≠ '\r' ∧ encodeChar x ≠ '\n' ∧
    encodeChar x ≠ '.' := by
  decide

theorem encodeChar_ne_space_all : ∀ x : Fin 64, encodeChar x ≠ ' ' := by decide

theorem sextets_lt (src : List UInt8) : ∀ x ∈ sextets src, x < 64 := by
  induction src using sextets.induct with
  | case1 a b c rest ih =>
    simp only [sextets, List.mem_cons]
    have := toNat_lt a; have := toNat_lt b; have := toNat_lt c
    rintro x (rfl | rfl | rfl | rfl | hx)
    all_goals first | omega | exact ih x hx
  | case2 a b =>
    have := toNat_lt a; have := toNat_lt b
    simp only [sextets, List.mem_cons, List.not_mem_nil, or_false]
    rintro x (rfl | rfl | rfl) <;> omega
  | case3 a =>
    have := toNat_lt a
    simp only [sextets, List.mem_cons, List.not_mem_nil, or_false]
    rintro x (rfl | rfl) <;> omega
  | case4 => simp [sextets]

theorem decodeSextets_map {xs : List Nat} (h : ∀ x ∈ xs, x < 64) :
    decodeSextets (xs.map encodeChar) = some xs := by
  induction xs with
  | nil => rfl
  | cons x xs ih =>
    have hx := h x (List.mem_cons_self x xs)
    obtain ⟨hr, hn, -⟩ := encodeChar_ne_all ⟨x, hx⟩
    simp only [List.map_cons, decodeSextets, hr, hn, or_self, ↓reduceIte,
      decodeChar_encodeChar hx, Option.some_bind, ih fun y hy => h y (List.mem_cons_of_mem x hy),
      Option.map_some']

theorem ofNat_toNat (a : UInt8) : UInt8.ofNat a.toNat = a :=
  UInt8.eq_of_val_eq (Fin.ext (UInt8.toNat_ofNat_of_lt a.toNat_lt_size))

theorem decodeGroups_sextets (src : List UInt8) : decodeGroups (sextets src) = some src := by
  induction src using sextets.induct with
  | case1 a b c rest ih =>
    have := toNat_lt a; have := toNat_lt b; have := toNat_lt c
    simp only [sextets, decodeGroups, ih, Option.map_some', Option.some.injEq, List.cons.injEq]
    refine ⟨?_, ?_, ?_, trivial⟩
    · rw [show a.toNat / 4 * 4 + (a.toNat % 4 * 16 + b.toNat / 16) / 16 = a.toNat by omega, ofNat_toNat]
    · rw [show (a.toNat % 4 * 16 + b.toNat / 16) % 16 * 16 + (b.toNat % 16 * 4 + c.toNat / 64) / 4 =
        b.toNat by omega, ofNat_toNat]
    · rw [show (b.toNat % 16 * 4 + c.toNat / 64) % 4 * 64 + c.toNat % 64 = c.toNat by omega, ofNat_toNat]
  | case2 a b =>
    have := toNat_lt a; have := toNat_lt b
    simp only [sextets, decodeGroups, Option.some.injEq, List.cons.injEq, and_true]
    refine ⟨?_, ?_⟩
    · rw [show a.toNat / 4 * 4 + (a.toNat % 4 * 16 + b.toNat / 16) / 16 = a.toNat by omega, ofNat_toNat]
    · rw [show (a.toNat % 4 * 16 + b.toNat / 16) % 16 * 16 + b.toNat % 16 * 4 / 4 = b.toNat by omega,
        ofNat_toNat]
  | case3 a =>
    have := toNat_lt a
    simp only [sextets, decodeGroups, Option.some.injEq, List.cons.injEq, and_true]
    rw [show a.toNat / 4 * 4 + a.toNat % 4 * 16 / 16 = a.toNat by omega, ofNat_toNat]
  | case4 => rfl

/-- `DecodeString` inverts `EncodeToString`. -/
theorem decodeString_encodeToString (src : List UInt8) :
    decodeString (encodeToString src) = some src := by
  rw [decodeString, encodeToString, decodeSextets_map (sextets_lt src), Option.some_bind,
    decodeGroups_sextets]

/-- No character of an encoded text is a `.`. -/
theorem dot_not_mem_encodeToString (src : List UInt8) : '.' ∉ encodeToString src := by
  simp only [encodeToString, List.mem_map, not_exists, not_and]
  intro x hx e
  exact (encodeChar_ne_all ⟨x, sextets_lt src x hx⟩).2.2 e

/-- No character of an encoded text is a space. -/
theorem space_not_mem_encodeToString (src : List UInt8) : ' ' ∉ encodeToString src := by
  simp only [encodeToString, List.mem_map, not_exists, not_and]
  intro x hx
  exact encodeChar_ne_space_all ⟨x, sextets_lt src x hx⟩

end Base64
end ApiGateway
