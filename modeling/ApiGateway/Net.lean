import ApiGateway.Strings

/-!
# ApiGateway.Net

The parts of Go's `net` package that gin's `ClientIP` calls: `SplitHostPort`, `ParseIP` and the
printing of an address, with `strings.TrimSpace`.

IPv4 text is parsed as `netip.parseIPv4` does it. IPv6 text is left to the parameter
`parseIPv6` (the address `ParseIP` accepts, as `String` prints it): no result below depends on it.
-/

namespace ApiGateway
namespace Net

/-- An address `ParseIP` accepts: four octets, or an IPv6 address as `String()` prints it. -/
inductive IP where
  | v4 (a b c d : Nat)
  | v6 (text : String)
  deriving DecidableEq, Repr

/-- `IP.String()`. -/
def IP.toString : IP → String
  | .v4 a b c d => Nat.repr a ++ "." ++ Nat.repr b ++ "." ++ Nat.repr c ++ "." ++ Nat.repr d
  | .v6 t => t

/-- `unicode.IsSpace`. -/
def isSpace (c : Char) : Bool :=
  c = ' ' ∨ c = '\t' ∨ c = '\n' ∨ c.toNat = 11 ∨ c.toNat = 12 ∨ c = '\r' ∨ c.toNat = 0x85 ∨
    c.toNat = 0xA0 ∨ c.toNat = 0x1680 ∨ (0x2000 ≤ c.toNat ∧ c.toNat ≤ 0x200A) ∨
    c.toNat = 0x2028 ∨ c.toNat = 0x2029 ∨ c.toNat = 0x202F ∨ c.toNat = 0x205F ∨ c.toNat = 0x3000

/-- `strings.TrimSpace`. -/
def trimSpace (s : String) : String :=
  ⟨((s.data.dropWhile isSpace).reverse.dropWhile isSpace).reverse⟩

/-- The loop of `netip.parseIPv4` over the characters left: the fields read so far, the value and
the number of digits of the current field, whether the last character was a dot, and whether
none was read yet. -/
def parseIPv4Loop : List Char → List Nat → Nat → Nat → Bool → Bool → Option (List Nat)
  | [], fields, val, _, _, _ => if fields.length < 3 then none else some (fields ++ [val])
  | c :: cs, fields, val, digLen, prevDot, first =>
    if '0' ≤ c ∧ c ≤ '9' then
      if digLen = 1 ∧ val = 0 then none
      else if 255 < val * 10 + (c.toNat - '0'.toNat) then none
      else parseIPv4Loop cs fields (val * 10 + (c.toNat - '0'.toNat)) (digLen + 1) false false
    else if c = '.' then
      if first ∨ cs = [] ∨ prevDot then none
      else if fields.length = 3 then none
      else parseIPv4Loop cs (fields ++ [val]) 0 0 true false
    else none

/-- `netip.parseIPv4`. -/
def parseIPv4 (s : String) : Option IP :=
  match parseIPv4Loop s.data [] 0 0 false true with
  | some [a, b, c, d] => some (.v4 a b c d)
  | _ => none

/-- `net.ParseIP`: the first dot, colon or percent sign decides how the text is read. -/
def parseIP (parseIPv6 : String → Option String) (s : String) : Option IP :=
  match s.data.find? fun c => c = '.' ∨ c = ':' ∨ c = '%' with
  | some '.' => parseIPv4 s
  | some ':' => (parseIPv6 s).map .v6
  | _ => none

/-- The first position of `c` in `l`. -/
def indexOf? (c : Char) (l : List Char) : Option Nat := l.findIdx? (· = c)

/-- `net.SplitHostPort`: the host and the port, or none on any of its errors. -/
def splitHostPort (s : String) : Option (String × String) :=
  let hp := s.data
  match indexOf? ':' hp.reverse with
  | none => none
  | some r =>
    let i := hp.length - 1 - r
    let bracket := hp.head? = some '['
    let hostRange : Option (List Char × Nat × Nat) :=
      if bracket then
        match indexOf? ']' hp with
        | none => none
        | some e => if e + 1 = i then some ((hp.take e).drop 1, 1, e + 1) else none
      else if ':' ∈ hp.take i then none
      else some (hp.take i, 0, 0)
    match hostRange with
    | none => none
    | some (host, j, k) =>
      if '[' ∈ hp.drop j ∨ ']' ∈ hp.drop k then none
      else some (⟨host⟩, ⟨hp.drop (i + 1)⟩)

end Net
end ApiGateway
