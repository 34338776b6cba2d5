import Mathlib.Algebra.Group.Nat.Basic
import Mathlib.Data.List.Basic

/-!
# ApiGateway.Crypto

The hashes of Go's `crypto/sha256` and `crypto/sha512`, and `crypto/hmac`, which sign and verify
the HS256, HS384 and HS512 tokens of the `jwt` library. The three hashes are one definition of the
SHA-2 compression over words of `w` bits, with their own rotations, rounds and initial values;
the constants are computed as the standard defines them, from the cube and square roots of the
first primes.

No result about the gateway depends on what the hashes compute: a token is checked by computing
its signature again, with the same key, over the same text.
-/

namespace ApiGateway
namespace Crypto

/-- The integer `k`-th root of `n`, rounded down, by bisection. -/
def iroot (k n : Nat) : Nat := go (n + 1) 0 (n + 1)
where
  go : Nat → Nat → Nat → Nat
    | 0, lo, _ => lo
    | fuel + 1, lo, hi =>
      if hi ≤ lo + 1 then lo
      else if ((lo + hi) / 2) ^ k ≤ n then go fuel ((lo + hi) / 2) hi else go fuel lo ((lo + hi) / 2)

/-- The first eighty primes. -/
def primes : List Nat :=
  [2, 3, 5, 7, 11, 13, 17, 19, 23, 29, 31, 37, 41, 43, 47, 53, 59, 61, 67, 71, 73, 79, 83, 89, 97,
    101, 103, 107, 109, 113, 127, 131, 137, 139, 149, 151, 157, 163, 167, 173, 179, 181, 191, 193,
    197, 199, 211, 223, 227, 229, 233, 239, 241, 251, 257, 263, 269, 271, 277, 281, 283, 293, 307,
    311, 313, 317, 331, 337, 347, 349, 353, 359, 367, 373, 379, 383, 389, 397, 401, 409]

/-- A hash of the SHA-2 family: the word size in bits, the rounds, the rotations of `Σ0` and
`Σ1`, the rotations and the shift of `σ0` and `σ1`, the primes whose square roots give the initial
hash value, and the bytes of the digest. -/
structure Sha2 where
  w : Nat
  rounds : Nat
  bigSigma0 : Nat × Nat × Nat
  bigSigma1 : Nat × Nat × Nat
  smallSigma0 : Nat × Nat × Nat
  smallSigma1 : Nat × Nat × Nat
  ivPrimes : List Nat
  digestBytes : Nat

namespace Sha2

variable (p : Sha2)

/-- A word rotated right by `n` bits. -/
def rotr (x n : Nat) : Nat := (x >>> n ||| x <<< (p.w - n)) % 2 ^ p.w

/-- `Σ0`, `Σ1`: three rotations. -/
def bigSigma (r : Nat × Nat × Nat) (x : Nat) : Nat := p.rotr x r.1 ^^^ p.rotr x r.2.1 ^^^ p.rotr x r.2.2

/-- `σ0`, `σ1`: two rotations and a shift. -/
def smallSigma (r : Nat × Nat × Nat) (x : Nat) : Nat := p.rotr x r.1 ^^^ p.rotr x r.2.1 ^^^ x >>> r.2.2

/-- The round constants: the first bits of the fractional parts of the cube roots of the first
primes. -/
def k : List Nat := (primes.take p.rounds).map fun q => iroot 3 (q * 2 ^ (3 * p.w)) % 2 ^ p.w

/-- The initial hash value: the first bits of the fractional parts of the square roots of
`ivPrimes`. -/
def iv : List Nat := p.ivPrimes.map fun q => iroot 2 (q * 2 ^ (2 * p.w)) % 2 ^ p.w

/-- `n` as `k` bytes, most significant first. -/
def bigEndian (k n : Nat) : List UInt8 := (List.range k).reverse.map fun i => UInt8.ofNat (n >>> (8 * i) % 256)

/-- The number of bytes, most significant first. -/
def ofBigEndian (bs : List UInt8) : Nat := bs.foldl (fun acc b => acc * 256 + b.toNat) 0

/-- A list cut into pieces of `n` elements. -/
def chunks {α : Type} (n : Nat) : Nat → List α → List (List α)
  | 0, _ => []
  | fuel + 1, l => if l.isEmpty then [] else l.take n :: chunks n fuel (l.drop n)

/-- The message padded: a one bit, zeros, and its length in bits, to a whole number of blocks of
`2 w` bytes. -/
def pad (msg : List UInt8) : List UInt8 :=
  msg ++ [0x80] ++ List.replicate ((2 * p.w - (msg.length + 1 + p.w / 4) % (2 * p.w)) % (2 * p.w)) 0 ++
    bigEndian (p.w / 4) (8 * msg.length)

/-- The message schedule of a block: its sixteen words, then one word for each further round. -/
def schedule (block : List UInt8) : List Nat :=
  (List.range (p.rounds - 16)).foldl
    (fun ws t => ws ++ [(p.smallSigma p.smallSigma1 (ws.getD (t + 14) 0) + ws.getD (t + 9) 0 +
      p.smallSigma p.smallSigma0 (ws.getD (t + 1) 0) + ws.getD t 0) % 2 ^ p.w])
    ((chunks (p.w / 8) block.length block).map ofBigEndian)

/-- One round on the working variables `a, …, h`, with the round constant `kt` and the word `wt`. -/
def round (s : List Nat) (kt wt : Nat) : List Nat :=
  match s with
  | [a, b, c, d, e, f, g, h] =>
    let t1 := h + p.bigSigma p.bigSigma1 e + ((e &&& f) ^^^ ((2 ^ p.w - 1 - e) &&& g)) + kt + wt
    let t2 := p.bigSigma p.bigSigma0 a + ((a &&& b) ^^^ (a &&& c) ^^^ (b &&& c))
    [(t1 + t2) % 2 ^ p.w, a, b, c, (d + t1) % 2 ^ p.w, e, f, g]
  | _ => s

/-- The hash value after a block. -/
def compress (hv : List Nat) (block : List UInt8) : List Nat :=
  let s := (p.k.zip (p.schedule block)).foldl (fun s kw => p.round s kw.1 kw.2) hv
  (hv.zip s).map fun x => (x.1 + x.2) % 2 ^ p.w

/-- The digest of a message. -/
def hash (msg : List UInt8) : List UInt8 :=
  let hv := (chunks (2 * p.w) (p.pad msg).length (p.pad msg)).foldl p.compress p.iv
  (hv.flatMap (bigEndian (p.w / 8))).take p.digestBytes

end Sha2

/-- SHA-256. -/
def sha256 : Sha2 := ⟨32, 64, (2, 13, 22), (6, 11, 25), (7, 18, 3), (17, 19, 10), primes.take 8, 32⟩

/-- SHA-512. -/
def sha512 : Sha2 := ⟨64, 80, (28, 34, 39), (14, 18, 41), (1, 8, 7), (19, 61, 6), primes.take 8, 64⟩

/-- SHA-384: SHA-512 from the square roots of the ninth to the sixteenth primes, cut to 48 bytes. -/
def sha384 : Sha2 := { sha512 with ivPrimes := (primes.drop 8).take 8, digestBytes := 48 }

/-- `hmac.New(h, key)` written `msg` and summed, for a hash of blocks of `blockSize` bytes. -/
def hmac (h : List UInt8 → List UInt8) (blockSize : Nat) (key msg : List UInt8) : List UInt8 :=
  let k₀ := if blockSize < key.length then h key else key
  let k := k₀ ++ List.replicate (blockSize - k₀.length) 0
  h (k.map (· ^^^ 0x5c) ++ h (k.map (· ^^^ 0x36) ++ msg))

end Crypto
end ApiGateway
