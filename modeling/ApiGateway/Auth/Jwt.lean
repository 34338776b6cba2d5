import Mathlib.Data.List.Forall2
import Mathlib.Data.List.Nodup
import ApiGateway.Auth
import ApiGateway.Base64
import ApiGateway.Crypto
import ApiGateway.Json

/-!
# ApiGateway.Auth.Jwt

The `jwt` library the gateway calls, golang-jwt v5 over Go's `encoding/json`, on the bytes it
writes and reads. `SignedString` with `SigningMethodHS256` writes the header
`{"alg":"HS256","typ":"JWT"}`, the claims as `json.Marshal` writes them, each segment in
`RawURLEncoding`, and the HMAC-SHA256 of the first two segments under the secret. `ParseWithClaims`
splits the token at its two dots, decodes the header and the claims (keys matched exactly, then
case-folded, as `encoding/json` matches them), asks the key function of `ValidateToken` for the
key, which refuses a method other than HMAC, checks the signature, and runs the validator. The
validator checks `exp` and `nbf` only: the gateway passes no option, so `iss` and `aud` are never
read.

A Go string is bytes; a `String` here is valid UTF-8, and `generateTokenBytes` takes bytes.
`json.Marshal` writes each byte that is not UTF-8 as `\ufffd`.

* `unmarshalClaims_marshal`: decoding what `Marshal` writes gives the claims back, the metadata
  sorted by key and the dates truncated to the second.
* `parseWithClaims_signedString`: with the key it was signed with, a token parses to the claims
  decoded from it when they pass the validator.
* `validateToken_generateToken`: `ValidateToken` accepts the token `GenerateToken` returns for
  its whole lifetime and gives back the inputs.
* `validateToken_generateTokenBytes_reads`: for a user id given as bytes, `ValidateToken` gives
  back the string the JSON text of those bytes reads as.
* `invalid_utf8_userID_replaced`: a user id that is not UTF-8 comes back as `U+FFFD`.
* `validateToken_ignores_issuer_audience`: an instance with the same secret accepts the token,
  whatever its issuer and audience.
* `refreshToken_generateToken`: `RefreshToken` of such a token, in its refresh window, generates
  a token for the same user.
-/

namespace ApiGateway
namespace Auth

open Json

/-- `jwt.RegisteredClaims` as Go holds it, each string as its bytes. -/
structure GoRegisteredClaims where
  issuer : List UInt8
  subject : List UInt8
  audience : List (List UInt8)
  expiresAt : Option Int
  notBefore : Option Int
  issuedAt : Option Int
  id : List UInt8

/-- `auth.Claims` as Go holds it, each string as its bytes. -/
structure GoClaims where
  userID : List UInt8
  username : List UInt8
  email : List UInt8
  roles : List (List UInt8)
  metadata : List (List UInt8 × List UInt8)
  registered : GoRegisteredClaims

/-- The registered claims of well-formed strings, as Go holds them. -/
def RegisteredClaims.toGo (r : RegisteredClaims) : GoRegisteredClaims :=
  ⟨goString r.issuer, goString r.subject, r.audience.map goString, r.expiresAt, r.notBefore,
    r.issuedAt, goString r.id⟩

/-- The claims of well-formed strings, as Go holds them. -/
def Claims.toGo (c : Claims) : GoClaims :=
  ⟨goString c.userID, goString c.username, goString c.email, c.roles.map goString,
    c.metadata.map fun e => (goString e.1, goString e.2), c.registered.toGo⟩

namespace GolangJwt

/-! ## Signing -/

/-- The header `NewWithClaims(SigningMethodHS256, claims)` sets, as `json.Marshal` writes the map
`{"alg": "HS256", "typ": "JWT"}`, its keys in order. -/
def header : List UInt8 :=
  writeObject [(goString "alg", quote (goString "HS256")), (goString "typ", quote (goString "JWT"))]

/-- `NumericDate.MarshalJSON`: the seconds since the epoch of the instant truncated to the
second. -/
def writeDate (t : Int) : List UInt8 := formatInt (Time.truncate t Time.second / Time.second)

/-- The order of `strings.Compare` on the bytes of two strings. -/
def bytesLe : List UInt8 → List UInt8 → Bool
  | [], _ => true
  | _ :: _, [] => false
  | a :: as, b :: bs => a < b || (a == b && bytesLe as bs)

/-- The entries of a `map[string]string` in the order `json.Marshal` writes them, by key. -/
def sortedEntries (m : List (List UInt8 × List UInt8)) : List (List UInt8 × List UInt8) :=
  m.mergeSort fun a b => bytesLe a.1 b.1

/-- The members `json.Marshal` writes for `auth.Claims`: its own fields, then those of the embedded
`jwt.RegisteredClaims`, each under its tag; an `omitempty` member is left out when it is empty.
`Roles` has no `omitempty`: no roles is written as a nil slice is, `null`. `Audience` is an
array, `MarshalSingleStringAsArray` being set. -/
def claimsMembers (c : GoClaims) : List (String × List UInt8) :=
  [("user_id", quote c.userID), ("username", quote c.username), ("email", quote c.email),
    ("roles", if c.roles = [] then writeNull else writeArray (c.roles.map quote))] ++
  (if c.metadata = [] then [] else
    [("metadata", writeObject ((sortedEntries c.metadata).map fun e => (e.1, quote e.2)))]) ++
  (if c.registered.issuer = [] then [] else [("iss", quote c.registered.issuer)]) ++
  (if c.registered.subject = [] then [] else [("sub", quote c.registered.subject)]) ++
  (if c.registered.audience = [] then [] else
    [("aud", writeArray (c.registered.audience.map quote))]) ++
  (c.registered.expiresAt.map fun t => ("exp", writeDate t)).toList ++
  (c.registered.notBefore.map fun t => ("nbf", writeDate t)).toList ++
  (c.registered.issuedAt.map fun t => ("iat", writeDate t)).toList ++
  (if c.registered.id = [] then [] else [("jti", quote c.registered.id)])

/-- `json.Marshal(claims)`. -/
def marshal (c : GoClaims) : List UInt8 :=
  writeObject ((claimsMembers c).map fun m => (goString m.1, m.2))

/-- `token.SignedString(key)` for a token of `SigningMethodHS256`: the signing string, the header
and the claims in `RawURLEncoding` with a dot between them, then a dot and the HMAC-SHA256 of the
signing string with the key. -/
def signedString (key : List UInt8) (c : GoClaims) : List Char :=
  let s := Base64.encodeToString header ++ '.' :: Base64.encodeToString (marshal c)
  s ++ '.' :: Base64.encodeToString (Crypto.hmac Crypto.sha256.hash 64 key (goString ⟨s⟩))

example : Base64.encodeToString header = "eyJhbGciOiJIUzI1NiIsInR5cCI6IkpXVCJ9".data := by decide

/-! ## Decoding the claims -/

/-- The members of `auth.Claims` that `json.Unmarshal` decodes into, by their tags. -/
inductive Field where
  | userID | username | email | roles | metadata | issuer | subject | audience | expiresAt
  | notBefore | issuedAt | id
  deriving DecidableEq

/-- The tag of a field. -/
def Field.name : Field → String
  | .userID => "user_id" | .username => "username" | .email => "email" | .roles => "roles"
  | .metadata => "metadata" | .issuer => "iss" | .subject => "sub" | .audience => "aud"
  | .expiresAt => "exp" | .notBefore => "nbf" | .issuedAt => "iat" | .id => "jti"

/-- The fields, in the order of the struct. -/
def fields : List Field :=
  [.userID, .username, .email, .roles, .metadata, .issuer, .subject, .audience, .expiresAt,
    .notBefore, .issuedAt, .id]

/-- The character `foldName` puts for `c`: an ASCII letter in upper case, and `ToUpper(ToLower(c))`
for the others, of which only the long s, the Kelvin sign and the dotless and dotted i fold to an
ASCII letter. -/
def foldChar (c : Char) : Char :=
  if 'a' ≤ c ∧ c ≤ 'z' then Char.ofNat (c.toNat - 32)
  else if c = Char.ofNat 0x17F then 'S'
  else if c = Char.ofNat 0x212A then 'K'
  else if c = Char.ofNat 0x130 ∨ c = Char.ofNat 0x131 then 'I' else c

/-- The field a key of the claims object decodes into: the one whose tag is the key, or else one
whose tag folds to the same name; none for a key of no field. -/
def fieldOf (key : String) : Option Field :=
  match fields.find? (·.name = key) with
  | some f => some f
  | none => fields.find? fun f => f.name.data.map foldChar = key.data.map foldChar

/-- The kind of a JSON value, as `json.UnmarshalTypeError` names it. -/
def kind : Value → String
  | .null => "null" | .bool _ => "bool" | .number _ _ => "number" | .string _ => "string"
  | .array _ => "array" | .object _ => "object"

/-- The error `json.Unmarshal` saves for a value of the wrong kind at the field path `field`. -/
def typeError (v : Value) (field type : String) : String :=
  "json: cannot unmarshal " ++ kind v ++ " into Go struct field Claims." ++ field ++ " of type " ++ type

/-- A value decoded into a `string` that holds `old`: the string, `old` for `null`, and `old` with a
type error for any other value. -/
def storeString (field : String) (old : String) : Value → String × Option String
  | .string s => (s, none)
  | .null => (old, none)
  | v => (old, some (typeError v field "string"))

/-- A value decoded into a `[]string`: the strings of an array, an element that is no string
read as `""` with a type error for the first of them; no strings for `null`; a type error for any
other value. -/
def storeStrings (field : String) (old : List String) : Value → List String × Option String
  | .array xs =>
    (xs.map fun x => (storeString field "" x).1, (xs.map fun x => (storeString field "" x).2).findSome? id)
  | .null => ([], none)
  | v => (old, some (typeError v field "[]string"))

/-- A map `m` after the assignment `m[k] = v`. -/
def mapInsert (m : List (String × String)) (k v : String) : List (String × String) :=
  if m.any (·.1 = k) then m.map fun e => if e.1 = k then (k, v) else e else m ++ [(k, v)]

/-- A value decoded into a `map[string]string` that holds `old`: each member of an object assigned
in turn, a value that is no string assigned as `""` with a type error for the first of them; no
entries for `null`; a type error for any other value. -/
def storeMap (field : String) (old : List (String × String)) :
    Value → List (String × String) × Option String
  | .object kvs =>
    kvs.foldl (fun acc kv =>
      let d := storeString (field ++ "." ++ kv.1) "" kv.2
      (mapInsert acc.1 kv.1 d.1, acc.2 <|> d.2)) (old, none)
  | .null => ([], none)
  | v => (old, some (typeError v field "map[string]string"))

/-- `ClaimStrings.UnmarshalJSON`: a string is one audience, an array of strings is the audiences;
`null` leaves them as they are; anything else is `ErrInvalidType`. -/
def unmarshalAudience (old : List String) : Value → Except String (List String)
  | .string s => .ok [s]
  | .array xs => xs.mapM fun x => match x with
    | .string s => .ok s
    | _ => .error "invalid type for claim"
  | .null => .ok old
  | _ => .error "invalid type for claim"

/-- The whole seconds of the decimal `m * 10 ^ e`, rounded down, as `newNumericDateFromSeconds` and
the truncation to the second make them. -/
def floorDecimal (m e : Int) : Int := if 0 ≤ e then m * 10 ^ e.toNat else m / 10 ^ (-e).toNat

/-- A value decoded into a `*NumericDate`: nil for `null`; for a number, or a string holding a
number literal, the instant of its whole seconds; anything else is an error of
`NumericDate.UnmarshalJSON`. -/
def unmarshalDate : Value → Except String (Option Int)
  | .null => .ok none
  | .number m e => .ok (some (floorDecimal m e * Time.second))
  | .string s =>
    match readNumber (goString s) with
    | .ok (m, e, []) => .ok (some (floorDecimal m e * Time.second))
    | _ => .error "could not parse NumericData: json: invalid number literal, trying to unmarshal into Number"
  | v => .error ("could not parse NumericData: json: cannot unmarshal " ++ kind v ++
      " into Go value of type json.Number")

/-- Decoding a value into the field `f` of `c`: the claims after it and the type error `Unmarshal`
saves, or the error of an `UnmarshalJSON` method, which stops it. -/
def decodeField (c : Claims) (v : Value) : Field → Except String (Claims × Option String)
  | .userID => let d := storeString "user_id" c.userID v; .ok ({ c with userID := d.1 }, d.2)
  | .username => let d := storeString "username" c.username v; .ok ({ c with username := d.1 }, d.2)
  | .email => let d := storeString "email" c.email v; .ok ({ c with email := d.1 }, d.2)
  | .roles => let d := storeStrings "roles" c.roles v; .ok ({ c with roles := d.1 }, d.2)
  | .metadata => let d := storeMap "metadata" c.metadata v; .ok ({ c with metadata := d.1 }, d.2)
  | .issuer =>
    let d := storeString "iss" c.registered.issuer v
    .ok ({ c with registered.issuer := d.1 }, d.2)
  | .subject =>
    let d := storeString "sub" c.registered.subject v
    .ok ({ c with registered.subject := d.1 }, d.2)
  | .audience =>
    (unmarshalAudience c.registered.audience v).map fun a => ({ c with registered.audience := a }, none)
  | .expiresAt => (unmarshalDate v).map fun t => ({ c with registered.expiresAt := t }, none)
  | .notBefore => (unmarshalDate v).map fun t => ({ c with registered.notBefore := t }, none)
  | .issuedAt => (unmarshalDate v).map fun t => ({ c with registered.issuedAt := t }, none)
  | .id => let d := storeString "jti" c.registered.id v; .ok ({ c with registered.id := d.1 }, d.2)

/-- The members of the claims object decoded in order into `c`, with the first type error saved:
it is the error at the end. A member of no field is skipped. -/
def decodeMembers (c : Claims) (saved : Option String) : List (String × Value) → Except String Claims
  | [] => match saved with
    | some e => .error e
    | none => .ok c
  | (k, v) :: ms =>
    match fieldOf k with
    | none => decodeMembers c saved ms
    | some f =>
      match decodeField c v f with
      | .error e => .error e
      | .ok (c', e) => decodeMembers c' (saved <|> e) ms

/-- The zero `auth.Claims`, which `ValidateToken` decodes into. -/
def zeroClaims : Claims := ⟨"", "", "", [], [], ⟨"", "", [], none, none, none, ""⟩⟩

/-- `json.Unmarshal(claimBytes, &claims)` for the zero claims: `null` leaves them as they are. -/
def unmarshalClaims (bs : List UInt8) : Except String Claims :=
  match parse bs with
  | .error e => .error e
  | .ok .null => .ok zeroClaims
  | .ok (.object ms) => decodeMembers zeroClaims none ms
  | .ok v => .error ("json: cannot unmarshal " ++ kind v ++ " into Go value of type auth.Claims")

/-! ## Reading back what was signed -/

theorem goString_eq_nil {s : String} : goString s = [] ↔ s = "" := by
  obtain ⟨cs⟩ := s
  cases cs with
  | nil => exact ⟨fun _ => rfl, fun _ => rfl⟩
  | cons c cs =>
    refine ⟨fun h => absurd h ?_, fun h => absurd (congrArg String.data h) (List.cons_ne_nil c cs)⟩
    rw [goString, List.flatMap_cons]
    exact fun e => encodeRune_ne_nil c (List.append_eq_nil.mp e).1

/-- The order of the metadata of well-formed strings that `sortedEntries` sorts their bytes in. -/
def keyLe (a b : String × String) : Bool := bytesLe (goString a.1) (goString b.1)

/-- The claims `json.Unmarshal` reads back from `marshal c.toGo`: the metadata in the order of
their keys, the dates truncated to the second. -/
def normalize (c : Claims) : Claims :=
  { c with
    metadata := c.metadata.mergeSort keyLe
    registered.expiresAt := c.registered.expiresAt.map (Time.truncate · Time.second)
    registered.notBefore := c.registered.notBefore.map (Time.truncate · Time.second)
    registered.issuedAt := c.registered.issuedAt.map (Time.truncate · Time.second) }

/-- The members of the value `json.Unmarshal` reads from `marshal c.toGo`. -/
def claimsValues (c : Claims) : List (String × Value) :=
  [("user_id", .string c.userID), ("username", .string c.username), ("email", .string c.email),
    ("roles", if c.roles = [] then .null else .array (c.roles.map .string))] ++
  (if c.metadata = [] then [] else
    [("metadata", .object ((c.metadata.mergeSort keyLe).map fun e => (e.1, .string e.2)))]) ++
  (if c.registered.issuer = "" then [] else [("iss", .string c.registered.issuer)]) ++
  (if c.registered.subject = "" then [] else [("sub", .string c.registered.subject)]) ++
  (if c.registered.audience = [] then [] else
    [("aud", .array (c.registered.audience.map .string))]) ++
  (c.registered.expiresAt.map fun t => ("exp", dateValue t)).toList ++
  (c.registered.notBefore.map fun t => ("nbf", dateValue t)).toList ++
  (c.registered.issuedAt.map fun t => ("iat", dateValue t)).toList ++
  (if c.registered.id = "" then [] else [("jti", .string c.registered.id)])
where
  dateValue (t : Int) : Value := .number (Time.truncate t Time.second / Time.second) 0

section
variable {α β : Type} {R : α → β → Prop}

theorem forall₂_ite {p q : Prop} [Decidable p] [Decidable q] (hpq : p ↔ q) {a : α} {b : β}
    (h : ¬q → R a b) : List.Forall₂ R (if p then [] else [a]) (if q then [] else [b]) := by
  by_cases hq : q
  · rw [if_pos (hpq.mpr hq), if_pos hq]; exact .nil
  · rw [if_neg (mt hpq.mp hq), if_neg hq]; exact .cons (h hq) .nil

theorem forall₂_option {γ : Type} (o : Option γ) {f : γ → α} {g : γ → β} (h : ∀ t, R (f t) (g t)) :
    List.Forall₂ R (o.map f).toList (o.map g).toList := by
  cases o with
  | none => exact .nil
  | some t => exact .cons (h t) .nil

end

theorem reads_strings (xs : List String) :
    List.Forall₂ Reads ((xs.map goString).map quote) (xs.map .string) := by
  rw [List.map_map, List.forall₂_map_left_iff, List.forall₂_map_right_iff, List.forall₂_same]
  exact fun s _ => reads_quote s

/-- Each member `claimsMembers` writes for claims of well-formed strings is the text of the member
`claimsValues` has under the same name, also when the user id and the subject are given as bytes
whose quoted text reads as them. -/
theorem reads_claimsMembers (c : Claims) {u sub : List UInt8} (hu : Reads (quote u) (.string c.userID))
    (hsub : Reads (quote sub) (.string c.registered.subject))
    (hsub' : sub = [] ↔ c.registered.subject = "") :
    List.Forall₂ (fun m v => m.1 = v.1 ∧ Reads m.2 v.2)
      (claimsMembers { c.toGo with userID := u, registered.subject := sub }) (claimsValues c) := by
  have hd : ∀ t, Reads (writeDate t) (claimsValues.dateValue t) := fun t => reads_formatInt _
  unfold claimsMembers claimsValues
  refine List.rel_append (List.rel_append (List.rel_append (List.rel_append (List.rel_append
    (List.rel_append (List.rel_append (List.rel_append ?_ ?_) ?_) ?_) ?_)
    (forall₂_option _ fun t => ⟨rfl, hd t⟩)) (forall₂_option _ fun t => ⟨rfl, hd t⟩))
    (forall₂_option _ fun t => ⟨rfl, hd t⟩)) ?_
  · refine .cons ⟨rfl, hu⟩ (.cons ⟨rfl, reads_quote _⟩ (.cons ⟨rfl, reads_quote _⟩
      (.cons ⟨rfl, ?_⟩ .nil)))
    by_cases hr : c.roles = []
    · simp only [Claims.toGo, hr, List.map_nil, if_true]
      exact reads_null
    · simp only [Claims.toGo, List.map_eq_nil_iff, hr, if_false]
      exact reads_writeArray (reads_strings _)
  · refine forall₂_ite List.map_eq_nil_iff fun _ => ⟨rfl, ?_⟩
    have hm := @List.map_mergeSort _ _ keyLe (fun a b : List UInt8 × List UInt8 => bytesLe a.1 b.1)
      (fun e : String × String => (goString e.1, goString e.2)) c.metadata fun _ _ _ _ => rfl
    have hr := @reads_writeObject ((c.metadata.mergeSort keyLe).map fun e => (e.1, quote (goString e.2)))
      ((c.metadata.mergeSort keyLe).map fun e => (e.1, .string e.2)) (by
        rw [List.forall₂_map_left_iff, List.forall₂_map_right_iff, List.forall₂_same]
        exact fun e _ => ⟨rfl, reads_quote e.2⟩)
    simp only [List.map_map] at hr
    simpa only [Claims.toGo, sortedEntries, ← hm, List.map_map] using hr
  · exact forall₂_ite goString_eq_nil fun _ => ⟨rfl, reads_quote _⟩
  · exact forall₂_ite hsub' fun _ => ⟨rfl, hsub⟩
  · exact forall₂_ite List.map_eq_nil_iff fun _ => ⟨rfl, reads_writeArray (reads_strings _)⟩
  · exact forall₂_ite goString_eq_nil fun _ => ⟨rfl, reads_quote _⟩

theorem storeStrings_strings (field : String) (old xs : List String) :
    storeStrings field old (.array (xs.map .string)) = (xs, none) := by
  induction xs with
  | nil => rfl
  | cons x xs ih =>
    simp only [storeStrings, List.map_cons, List.map_map, Prod.mk.injEq] at ih ⊢
    exact ⟨congrArg (x :: ·) ih.1, ih.2⟩

theorem mapInsert_fresh {m : List (String × String)} {k : String} (h : k ∉ m.map Prod.fst) (v : String) :
    mapInsert m k v = m ++ [(k, v)] := by
  rw [mapInsert, if_neg]
  simp only [List.any_eq_true, decide_eq_true_eq, not_exists, not_and]
  exact fun e he h' => h (List.mem_map.mpr ⟨e, he, h'⟩)

/-- Assigning entries of distinct new keys appends them. -/
theorem storeMap_object (field : String) (old ms : List (String × String))
    (hk : (old.map Prod.fst ++ ms.map Prod.fst).Nodup) :
    storeMap field old (.object (ms.map fun e => (e.1, .string e.2))) = (old ++ ms, none) := by
  induction ms generalizing old with
  | nil => rw [List.map_nil, storeMap, List.foldl_nil, List.append_nil]
  | cons m ms ih =>
    have hm : m.1 ∉ old.map Prod.fst := fun h =>
      List.disjoint_of_nodup_append hk h (List.mem_map_of_mem Prod.fst (List.mem_cons_self m ms))
    have := ih (old ++ [m]) (by simpa only [List.map_append, List.map_cons, List.map_nil,
      List.append_assoc, List.singleton_append] using hk)
    rw [storeMap] at this ⊢
    rw [List.map_cons, List.foldl_cons]
    dsimp only
    rw [mapInsert_fresh hm]
    exact this.trans (by rw [List.append_assoc]; rfl)

theorem unmarshalAudience_strings (old xs : List String) :
    unmarshalAudience old (.array (xs.map .string)) = .ok xs := by
  induction xs with
  | nil => rfl
  | cons x xs ih =>
    simp only [unmarshalAudience, List.map_cons, List.mapM_cons] at ih ⊢
    rw [ih]
    rfl

theorem unmarshalDate_dateValue (t : Int) :
    unmarshalDate (claimsValues.dateValue t) = .ok (some (Time.truncate t Time.second)) := by
  rw [claimsValues.dateValue, unmarshalDate, floorDecimal, if_pos le_rfl, Int.toNat_zero, pow_zero,
    Int.mul_one, Time.truncate_second_ediv]

theorem decodeMembers_cons {c : Claims} {saved : Option String} {k : String} {v : Value}
    {f : Field} (ms : List (String × Value)) (hk : fieldOf k = some f) :
    decodeMembers c saved ((k, v) :: ms) =
      match decodeField c v f with
      | .error e => .error e
      | .ok (c', e) => decodeMembers c' (saved <|> e) ms := by
  rw [decodeMembers, hk]

/-- An optional member that would leave the claims as they are may as well be there. -/
theorem decodeMembers_ite {c : Claims} {p : Prop} [Decidable p] {k : String} {v : Value}
    {f : Field} (ms : List (String × Value)) (hk : fieldOf k = some f)
    (hp : p → decodeField c v f = .ok (c, none)) :
    decodeMembers c none ((if p then [] else [(k, v)]) ++ ms) = decodeMembers c none ((k, v) :: ms) := by
  by_cases h : p
  · rw [if_pos h, List.nil_append, decodeMembers_cons ms hk, hp h]
    rfl
  · rw [if_neg h, List.singleton_append]

theorem decodeMembers_option {c : Claims} {o : Option Int} {k : String} {f : Field}
    (ms : List (String × Value)) (hk : fieldOf k = some f) (v : Int → Value)
    (hn : decodeField c .null f = .ok (c, none)) :
    decodeMembers c none ((o.map fun t => (k, v t)).toList ++ ms) =
      decodeMembers c none ((k, o.elim .null v) :: ms) := by
  cases o with
  | none => rw [Option.map_none', Option.toList_none, List.nil_append, decodeMembers_cons ms hk, Option.elim, hn]; rfl
  | some t => rfl

theorem unmarshalDate_elim (o : Option Int) :
    unmarshalDate (o.elim .null claimsValues.dateValue) = .ok (o.map (Time.truncate · Time.second)) := by
  cases o with
  | none => rfl
  | some t => exact unmarshalDate_dateValue t

theorem storeStrings_roles (field : String) (old rs : List String) :
    storeStrings field old (if rs = [] then .null else .array (rs.map .string)) = (rs, none) := by
  split_ifs with h
  · rw [h]; rfl
  · exact storeStrings_strings field old rs

theorem fieldOf_tags : fieldOf "user_id" = some .userID ∧ fieldOf "username" = some .username ∧
    fieldOf "email" = some .email ∧ fieldOf "roles" = some .roles ∧
    fieldOf "metadata" = some .metadata ∧ fieldOf "iss" = some .issuer ∧
    fieldOf "sub" = some .subject ∧ fieldOf "aud" = some .audience ∧
    fieldOf "exp" = some .expiresAt ∧ fieldOf "nbf" = some .notBefore ∧
    fieldOf "iat" = some .issuedAt ∧ fieldOf "jti" = some .id := by
  decide

/-- `json.Unmarshal` decodes the members `json.Marshal` writes for claims of well-formed strings
into those claims, up to the order of the metadata and the truncation of the dates. -/
theorem decodeMembers_claimsValues (c : Claims) (hk : (c.metadata.map Prod.fst).Nodup) :
    decodeMembers zeroClaims none (claimsValues c) = .ok (normalize c) := by
  have hs : ((c.metadata.mergeSort keyLe).map Prod.fst).Nodup :=
    ((List.mergeSort_perm c.metadata keyLe).map Prod.fst).nodup_iff.mpr hk
  obtain ⟨h₁, h₂, h₃, h₄, h₅, h₆, h₇, h₈, h₉, h₁₀, h₁₁, h₁₂⟩ := fieldOf_tags
  have ho : ((none : Option String) <|> none) = none := rfl
  unfold claimsValues
  simp only [List.append_assoc, List.cons_append, List.nil_append, zeroClaims]
  simp only [decodeMembers_cons _ h₁, decodeMembers_cons _ h₂, decodeMembers_cons _ h₃,
    decodeMembers_cons _ h₄, decodeField, storeString, storeStrings_roles, ho]
  rw [decodeMembers_ite _ h₅ fun h => by rw [h, List.mergeSort_nil]; rfl]
  simp only [decodeMembers_cons _ h₅, decodeField, storeMap_object "metadata" [] _ hs, ho,
    List.nil_append]
  rw [decodeMembers_ite _ h₆ fun h => by rw [h]; rfl]
  simp only [decodeMembers_cons _ h₆, decodeField, storeString, ho]
  rw [decodeMembers_ite _ h₇ fun h => by rw [h]; rfl]
  simp only [decodeMembers_cons _ h₇, decodeField, storeString, ho]
  rw [decodeMembers_ite _ h₈ fun h => by rw [h]; rfl]
  simp only [decodeMembers_cons _ h₈, decodeField, unmarshalAudience_strings, Except.map, ho]
  rw [decodeMembers_option _ h₉ claimsValues.dateValue ?_]
  swap
  · rfl
  simp only [decodeMembers_cons _ h₉, decodeField, unmarshalDate_elim, Except.map, ho]
  rw [decodeMembers_option _ h₁₀ claimsValues.dateValue ?_]
  swap
  · rfl
  simp only [decodeMembers_cons _ h₁₀, decodeField, unmarshalDate_elim, Except.map, ho]
  rw [decodeMembers_option _ h₁₁ claimsValues.dateValue ?_]
  swap
  · rfl
  simp only [decodeMembers_cons _ h₁₁, decodeField, unmarshalDate_elim, Except.map, ho]
  rw [← List.append_nil (if c.registered.id = "" then [] else _), decodeMembers_ite _ h₁₂ fun h => by rw [h]; rfl]
  simp only [decodeMembers_cons _ h₁₂, decodeField, storeString, ho]
  rfl

/-- `json.Unmarshal` reads back the claims `json.Marshal` writes for claims whose metadata is a map
and whose user id and subject are given as bytes that read as them. -/
theorem unmarshalClaims_marshal_bytes (c : Claims) (hk : (c.metadata.map Prod.fst).Nodup)
    {u sub : List UInt8} (hu : Reads (quote u) (.string c.userID))
    (hsub : Reads (quote sub) (.string c.registered.subject))
    (hsub' : sub = [] ↔ c.registered.subject = "") :
    unmarshalClaims (marshal { c.toGo with userID := u, registered.subject := sub }) =
      .ok (normalize c) := by
  rw [unmarshalClaims, marshal, parse_of_reads (reads_writeObject (reads_claimsMembers c hu hsub hsub'))]
  exact decodeMembers_claimsValues c hk

/-- `json.Unmarshal` reads back the claims `json.Marshal` writes, for claims of well-formed strings
whose metadata is a map, up to the order of the metadata and the truncation of the dates. -/
theorem unmarshalClaims_marshal (c : Claims) (hk : (c.metadata.map Prod.fst).Nodup) :
    unmarshalClaims (marshal c.toGo) = .ok (normalize c) :=
  unmarshalClaims_marshal_bytes c hk (reads_quote _) (reads_quote _) goString_eq_nil

/-! ## Parsing -/

/-- The signing methods `jwt.GetSigningMethod` finds by their `alg`: HMAC with its hash and the
hash's block size, or one of the others, which the key function of `ValidateToken` refuses. -/
inductive SigningMethod where
  | hmac (hash : Crypto.Sha2) (blockSize : Nat)
  | other

/-- `jwt.GetSigningMethod(alg)`: the methods the library registers. -/
def getSigningMethod (alg : String) : Option SigningMethod :=
  if alg = "HS256" then some (.hmac Crypto.sha256 64)
  else if alg = "HS384" then some (.hmac Crypto.sha384 128)
  else if alg = "HS512" then some (.hmac Crypto.sha512 128)
  else if alg ∈ ["RS256", "RS384", "RS512", "PS256", "PS384", "PS512", "ES256", "ES384", "ES512",
    "EdDSA", "none"] then some .other
  else none

/-- The last value of a key among the members of an object, as a map keeps it. -/
def lookupLast (key : String) (ms : List (String × Value)) : Option Value :=
  ms.foldl (fun acc m => if m.1 = key then some m.2 else acc) none

/-- `json.Unmarshal(headerBytes, &token.Header)` into a `map[string]interface{}`, and then
`token.Header["alg"].(string)`: none when the header is `null`, has no `alg`, or its `alg` is no
string. -/
def headerAlg (bs : List UInt8) : Except String (Option String) :=
  match parse bs with
  | .error e => .error e
  | .ok .null => .ok none
  | .ok (.object ms) =>
    .ok (match lookupLast "alg" ms with
      | some (.string a) => some a
      | _ => none)
  | .ok v => .error ("json: cannot unmarshal " ++ kind v ++ " into Go value of type map[string]interface {}")

/-- The `Validator` of a parser made with no options, at the instant `now`: the expiry, if there
is one, must be after `now`, and the not-before, if there is one, not after it. The issued-at, the
audience, the issuer and the subject are not checked. -/
def validate (now : Int) (c : Claims) : Except String Unit :=
  let errs := (match c.registered.expiresAt with
      | some exp => if now < exp then [] else ["token is expired"]
      | none => []) ++
    (match c.registered.notBefore with
      | some nbf => if now < nbf then ["token is not valid yet"] else []
      | none => [])
  if errs = [] then .ok () else .error ("token has invalid claims: " ++ ", ".intercalate errs)

/-- `strings.Cut(s, ".")`. -/
def cutDot : List Char → Option (List Char × List Char)
  | [] => none
  | c :: cs => if c = '.' then some ([], cs) else (cutDot cs).map fun p => (c :: p.1, p.2)

/-- `splitToken`: the three segments of a token with exactly two dots. -/
def splitToken (token : List Char) : Option (List Char × List Char × List Char) :=
  match cutDot token with
  | none => none
  | some (h, r) =>
    match cutDot r with
    | none => none
    | some (c, s) => if (cutDot s).isSome then none else some (h, c, s)

/-- `jwt.ParseWithClaims(token, &Claims{}, keyFunc)` with the key function of `ValidateToken`,
which refuses a method that is not HMAC and gives `key` for the others, at the instant `now`. -/
def parseWithClaims (key : List UInt8) (token : List Char) (now : Int) : Except String Claims :=
  match splitToken token with
  | none => .error "token is malformed: token contains an invalid number of segments"
  | some (h, c, s) =>
    match Base64.decodeString h with
    | none => .error "token is malformed: could not base64 decode header: illegal base64 data"
    | some hb =>
      match headerAlg hb with
      | .error e => .error ("token is malformed: could not JSON decode header: " ++ e)
      | .ok alg =>
        match Base64.decodeString c with
        | none => .error "token is malformed: could not base64 decode claim: illegal base64 data"
        | some cb =>
          match unmarshalClaims cb with
          | .error e => .error ("token is malformed: could not JSON decode claim: " ++ e)
          | .ok claims =>
            match alg with
            | none => .error "token is unverifiable: signing method (alg) is unspecified"
            | some alg =>
              match getSigningMethod alg with
              | none => .error "token is unverifiable: signing method (alg) is unavailable"
              | some m =>
                match Base64.decodeString s with
                | none =>
                  .error "token is malformed: could not base64 decode signature: illegal base64 data"
                | some sig =>
                  match m with
                  | .other => .error ("token is unverifiable: error while executing keyfunc: " ++
                      "unexpected signing method: " ++ alg)
                  | .hmac hash blockSize =>
                    if sig = Crypto.hmac hash.hash blockSize key (goString ⟨h ++ '.' :: c⟩) then
                      (validate now claims).map fun _ => claims
                    else .error "token signature is invalid: signature is invalid"

/-! ## Parsing what was signed -/

theorem cutDot_append {a : List Char} (h : '.' ∉ a) (r : List Char) :
    cutDot (a ++ '.' :: r) = some (a, r) := by
  induction a with
  | nil => rfl
  | cons x a ih =>
    rw [List.cons_append, cutDot, if_neg fun (e : x = '.') => h (e ▸ List.mem_cons_self x a),
      ih fun h' => h (List.mem_cons_of_mem x h')]
    rfl

theorem cutDot_none {a : List Char} (h : '.' ∉ a) : cutDot a = none := by
  induction a with
  | nil => rfl
  | cons x a ih =>
    rw [cutDot, if_neg fun (e : x = '.') => h (e ▸ List.mem_cons_self x a), ih fun h' => h (List.mem_cons_of_mem x h')]
    rfl

/-- A token of three segments with no dot in them is split into them. -/
theorem splitToken_eq {a b s : List Char} (ha : '.' ∉ a) (hb : '.' ∉ b) (hs : '.' ∉ s) :
    splitToken (a ++ '.' :: (b ++ '.' :: s)) = some (a, b, s) := by
  rw [splitToken, cutDot_append ha]
  dsimp only
  rw [cutDot_append hb]
  dsimp only
  rw [cutDot_none hs]
  rfl

theorem headerAlg_header : headerAlg header = .ok (some "HS256") := by
  have hr := @reads_writeObject [("alg", quote (goString "HS256")), ("typ", quote (goString "JWT"))]
    [("alg", .string "HS256"), ("typ", .string "JWT")] (.cons ⟨rfl, reads_quote _⟩ (.cons ⟨rfl, reads_quote _⟩ .nil))
  have hp : parse header = .ok (.object [("alg", .string "HS256"), ("typ", .string "JWT")]) :=
    parse_of_reads hr
  rw [headerAlg, hp]
  rfl

theorem getSigningMethod_hs256 : getSigningMethod "HS256" = some (.hmac Crypto.sha256 64) := rfl

/-- `ParseWithClaims` on a token of three segments that decode, whose header names HS256: the
claims it decodes, when the signature is the HMAC-SHA256 of the first two segments and the
claims pass the validator. -/
theorem parseWithClaims_hs256 (key : List UInt8) {e₁ e₂ e₃ : List Char} {hb cb sig : List UInt8}
    (n₁ : '.' ∉ e₁) (n₂ : '.' ∉ e₂) (n₃ : '.' ∉ e₃) (d₁ : Base64.decodeString e₁ = some hb)
    (d₂ : Base64.decodeString e₂ = some cb) (d₃ : Base64.decodeString e₃ = some sig)
    (hh : headerAlg hb = .ok (some "HS256")) (now : Int) :
    parseWithClaims key (e₁ ++ '.' :: e₂ ++ '.' :: e₃) now =
      match unmarshalClaims cb with
      | .error e => .error ("token is malformed: could not JSON decode claim: " ++ e)
      | .ok claims =>
        if sig = Crypto.hmac Crypto.sha256.hash 64 key (goString ⟨e₁ ++ '.' :: e₂⟩) then
          (validate now claims).map fun _ => claims
        else .error "token signature is invalid: signature is invalid" := by
  rw [List.append_assoc, List.cons_append, parseWithClaims, splitToken_eq n₁ n₂ n₃]
  simp only [d₁, d₂, d₃, hh, getSigningMethod_hs256]

/-- `ParseWithClaims` with the key a token was signed with finds the signature right, and gives
the claims it decodes from the token if they pass the validator. -/
theorem parseWithClaims_signedString (key : List UInt8) (c : GoClaims) (now : Int) :
    parseWithClaims key (signedString key c) now =
      match unmarshalClaims (marshal c) with
      | .error e => .error ("token is malformed: could not JSON decode claim: " ++ e)
      | .ok claims => (validate now claims).map fun _ => claims := by
  rw [signedString, parseWithClaims_hs256 key (Base64.dot_not_mem_encodeToString _)
    (Base64.dot_not_mem_encodeToString _) (Base64.dot_not_mem_encodeToString _)
    (Base64.decodeString_encodeToString _) (Base64.decodeString_encodeToString _)
    (Base64.decodeString_encodeToString _) headerAlg_header]
  cases unmarshalClaims (marshal c) <;> simp only [if_true]

end GolangJwt

/-! ## The gateway on golang-jwt -/

/-- The `jwt` library, golang-jwt v5: signing never fails, and keys are the bytes of the secret. -/
def golangJwt : Jwt where
  signedString key claims := .ok ⟨GolangJwt.signedString (goString key) claims.toGo⟩
  parseWithClaims key token now := GolangJwt.parseWithClaims (goString key) token.data now

theorem golangJwt_parseWithClaims (key token : String) (now : Int) :
    golangJwt.parseWithClaims key token now = GolangJwt.parseWithClaims (goString key) token.data now :=
  rfl

namespace JWTAuth

/-- The claims `GenerateToken(userID, username, email, roles, metadata)` signs at `now`. -/
def issuedClaims (j : JWTAuth) (userID username email : String) (roles : List String)
    (metadata : List (String × String)) (now : Int) : Claims :=
  { userID, username, email, roles, metadata
    registered :=
      { issuer := j.issuer, subject := userID, audience := [j.audience]
        expiresAt := some (Time.truncate (now + j.expirationTime) Time.second)
        notBefore := some (Time.truncate now Time.second)
        issuedAt := some (Time.truncate now Time.second), id := "" } }

/-- The claims `GenerateToken` signs, for strings given as the bytes Go holds, which need not be
well formed. -/
def issuedGoClaims (j : JWTAuth) (userID username email : List UInt8) (roles : List (List UInt8))
    (metadata : List (List UInt8 × List UInt8)) (now : Int) : GoClaims :=
  { userID, username, email, roles, metadata
    registered :=
      { issuer := goString j.issuer, subject := userID, audience := [goString j.audience]
        expiresAt := some (Time.truncate (now + j.expirationTime) Time.second)
        notBefore := some (Time.truncate now Time.second)
        issuedAt := some (Time.truncate now Time.second), id := [] } }

/-- `GenerateToken(userID, username, email, roles, metadata)` at `now` with golang-jwt, for strings
given as their bytes. -/
def generateTokenBytes (j : JWTAuth) (userID username email : List UInt8) (roles : List (List UInt8))
    (metadata : List (List UInt8 × List UInt8)) (now : Int) : String :=
  ⟨GolangJwt.signedString (goString j.secret) (j.issuedGoClaims userID username email roles metadata now)⟩

/-- For well-formed strings, `GenerateToken` with golang-jwt signs `issuedClaims`, and is
`generateTokenBytes` of their bytes. -/
theorem generateToken_golangJwt (j : JWTAuth) (userID username email : String)
    (roles : List String) (metadata : List (String × String)) (now : Int) :
    j.generateToken golangJwt userID username email roles metadata now =
      .ok (j.generateTokenBytes (goString userID) (goString username) (goString email)
        (roles.map goString) (metadata.map fun e => (goString e.1, goString e.2)) now) ∧
    j.issuedGoClaims (goString userID) (goString username) (goString email) (roles.map goString)
      (metadata.map fun e => (goString e.1, goString e.2)) now =
        (j.issuedClaims userID username email roles metadata now).toGo :=
  ⟨rfl, rfl⟩

theorem space_not_mem_signedString (key : List UInt8) (c : GoClaims) :
    ' ' ∉ GolangJwt.signedString key c := by
  simp only [GolangJwt.signedString, List.mem_append, List.mem_cons, not_or]
  exact ⟨⟨Base64.space_not_mem_encodeToString _, by decide, Base64.space_not_mem_encodeToString _⟩,
    by decide, Base64.space_not_mem_encodeToString _⟩

/-- `ValidateToken` of an instance `B` on a token `GenerateToken` of an instance `A` made with the
same secret: the claims decoded from it, when they pass the validator. The issuer and the audience
of `B` are not read. -/
theorem validateToken_generateTokenBytes {A B : JWTAuth} (hs : A.secret = B.secret)
    (userID username email : List UInt8) (roles : List (List UInt8))
    (metadata : List (List UInt8 × List UInt8)) (now t : Int) :
    B.validateToken golangJwt (A.generateTokenBytes userID username email roles metadata now) t =
      match GolangJwt.unmarshalClaims (GolangJwt.marshal
        (A.issuedGoClaims userID username email roles metadata now)) with
      | .error e => .error ("token validation failed: token is malformed: could not JSON decode claim: " ++ e)
      | .ok claims =>
        match GolangJwt.validate t claims with
        | .ok () => .ok claims
        | .error e => .error ("token validation failed: " ++ e) := by
  rw [generateTokenBytes,
    @validateToken_of_extract golangJwt B ⟨GolangJwt.signedString _ _⟩ (space_not_mem_signedString _ _) t]
  rw [golangJwt_parseWithClaims, ← hs, GolangJwt.parseWithClaims_signedString]
  cases GolangJwt.unmarshalClaims _ with
  | error e => rfl
  | ok claims =>
    dsimp only
    cases GolangJwt.validate t claims <;> rfl

/-- The validator passes the claims `GenerateToken` signs, read back with their dates truncated to
the second, from the second they were issued in until the second they expire in. -/
theorem validate_issuedClaims (j : JWTAuth) (userID username email : String) (roles : List String)
    (metadata : List (String × String)) {now t : Int} (ht₁ : Time.truncate now Time.second ≤ t)
    (ht₂ : t < Time.truncate (now + j.expirationTime) Time.second) :
    GolangJwt.validate t (GolangJwt.normalize (j.issuedClaims userID username email roles metadata now)) =
      .ok () := by
  simp only [GolangJwt.validate, GolangJwt.normalize, issuedClaims, Option.map_some',
    Time.truncate_truncate_second, if_pos ht₂, if_neg (not_lt.mpr ht₁)]
  rfl

/-- `ValidateToken` reads the secret of its instance and nothing else of it. -/
theorem validateToken_of_secret (jwt : Jwt) {A B : JWTAuth} (hs : A.secret = B.secret)
    (token : String) (now : Int) : B.validateToken jwt token now = A.validateToken jwt token now := by
  rw [validateToken, validateToken, hs]

/-- `ValidateToken` of an instance `B` with the secret of `A` on the token `A.GenerateToken` signs
for a user id given as bytes `u` whose quoted text reads as the string `s`: from the second it was
issued in until the second it expires in, the claims of the user id `s`, read back. -/
theorem validateToken_generateTokenBytes_reads {A B : JWTAuth} (hs : A.secret = B.secret)
    {u : List UInt8} {s : String} (hu : Reads (quote u) (.string s)) (hne : u = [] ↔ s = "")
    (username email : String) (roles : List String) (metadata : List (String × String))
    (hk : (metadata.map Prod.fst).Nodup) {now t : Int} (ht₁ : Time.truncate now Time.second ≤ t)
    (ht₂ : t < Time.truncate (now + A.expirationTime) Time.second) :
    B.validateToken golangJwt (A.generateTokenBytes u (goString username) (goString email)
        (roles.map goString) (metadata.map fun e => (goString e.1, goString e.2)) now) t =
      .ok (GolangJwt.normalize (A.issuedClaims s username email roles metadata now)) := by
  have hc : A.issuedGoClaims u (goString username) (goString email) (roles.map goString)
      (metadata.map fun e => (goString e.1, goString e.2)) now =
      { (A.issuedClaims s username email roles metadata now).toGo with
          userID := u, registered.subject := u } := rfl
  rw [validateToken_generateTokenBytes hs, hc, GolangJwt.unmarshalClaims_marshal_bytes _ hk hu hu hne]
  dsimp only
  rw [validate_issuedClaims A s username email roles metadata ht₁ ht₂]

/-- An instance `B` with the secret of `A` accepts the token `A.GenerateToken` returns for
well-formed strings and metadata keys pairwise distinct, from the second it was issued in until
the second it expires in under the expiration time of `A`, and gives back the claims `A` signed,
read back. -/
theorem validateToken_issued {A B : JWTAuth} (hs : A.secret = B.secret)
    (userID username email : String) (roles : List String) (metadata : List (String × String))
    (hk : (metadata.map Prod.fst).Nodup) (now t : Int) (ht₁ : Time.truncate now Time.second ≤ t)
    (ht₂ : t < Time.truncate (now + A.expirationTime) Time.second) :
    ∃ token, A.generateToken golangJwt userID username email roles metadata now = .ok token ∧
      B.validateToken golangJwt token t =
        .ok (GolangJwt.normalize (A.issuedClaims userID username email roles metadata now)) :=
  ⟨_, (generateToken_golangJwt A userID username email roles metadata now).1,
    validateToken_generateTokenBytes_reads hs (reads_quote userID) GolangJwt.goString_eq_nil username email
      roles metadata hk ht₁ ht₂⟩

/-- For strings that are valid UTF-8, any role list and any metadata map, `ValidateToken` accepts
the token `GenerateToken` returns from the second it was issued in until the second it expires in,
and the claims carry the inputs, the metadata in an order of its own. -/
theorem validateToken_generateToken (j : JWTAuth) (userID username email : String)
    (roles : List String) (metadata : List (String × String)) (hk : (metadata.map Prod.fst).Nodup)
    (now t : Int) (ht₁ : Time.truncate now Time.second ≤ t)
    (ht₂ : t < Time.truncate (now + j.expirationTime) Time.second) :
    ∃ token claims, j.generateToken golangJwt userID username email roles metadata now = .ok token ∧
      j.validateToken golangJwt token t = .ok claims ∧ claims.userID = userID ∧
      claims.username = username ∧ claims.email = email ∧ claims.roles = roles ∧
      claims.metadata.Perm metadata := by
  obtain ⟨token, hg, hv⟩ := validateToken_issued rfl userID username email roles metadata hk now t ht₁ ht₂
  exact ⟨token, _, hg, hv, rfl, rfl, rfl, rfl, List.mergeSort_perm _ _⟩

theorem validateToken_generateToken_test :
    ([("department", "engineering")].map Prod.fst).Nodup ∧ Time.truncate 0 Time.second ≤ 0 ∧
      0 < Time.truncate (0 + 3600 * Time.second) Time.second ∧
      ∃ token claims, JWTAuth.generateToken golangJwt ⟨"test-secret-key", 3600 * Time.second,
          24 * 3600 * Time.second, "test-issuer", "test-audience", "HS256"⟩ "user123" "testuser"
          "test@example.com" ["user", "admin"] [("department", "engineering")] 0 = .ok token ∧
        JWTAuth.validateToken golangJwt ⟨"test-secret-key", 3600 * Time.second,
          24 * 3600 * Time.second, "test-issuer", "test-audience", "HS256"⟩ token 0 = .ok claims ∧
        claims.userID = "user123" ∧ claims.username = "testuser" ∧ claims.email = "test@example.com" ∧
        claims.roles = ["user", "admin"] ∧ claims.metadata.Perm [("department", "engineering")] :=
  ⟨by decide, by decide, by decide,
    validateToken_generateToken _ _ _ _ _ _ (by decide) 0 0 (by decide) (by decide)⟩

/-- A user id of the single byte `0xFF`, which is not UTF-8: the instance of the test accepts the
token it generates, and the user id it gives back is `U+FFFD`, the bytes `EF BF BD`. -/
theorem invalid_utf8_userID_replaced :
    JWTAuth.validateToken golangJwt ⟨"test-secret-key", 3600 * Time.second, 24 * 3600 * Time.second,
        "test-issuer", "test-audience", "HS256"⟩
      (JWTAuth.generateTokenBytes ⟨"test-secret-key", 3600 * Time.second, 24 * 3600 * Time.second,
        "test-issuer", "test-audience", "HS256"⟩ [0xFF] [] [] [] [] 0) 0 =
      .ok { userID := "\uFFFD", username := "", email := "", roles := [], metadata := []
            registered :=
              { issuer := "test-issuer", subject := "\uFFFD", audience := ["test-audience"]
                expiresAt := some (3600 * Time.second), notBefore := some 0, issuedAt := some 0
                id := "" } } ∧
    goString "\uFFFD" = [0xEF, 0xBF, 0xBD] := by
  have hne : [(0xFF : UInt8)] = [] ↔ "\uFFFD" = "" := by decide
  have ht₁ : Time.truncate 0 Time.second ≤ 0 := by decide
  have ht₂ : (0 : Int) < Time.truncate (0 + 3600 * Time.second) Time.second := by decide
  refine ⟨(validateToken_generateTokenBytes_reads rfl reads_quote_ff hne "" "" [] [] List.nodup_nil
    ht₁ ht₂).trans ?_, by decide⟩
  simp only [GolangJwt.normalize, issuedClaims, List.mergeSort_nil, Option.map_some',
    Time.truncate_truncate_second]
  decide

/-- Two instances with the same secret, whatever their issuers and audiences: `B.ValidateToken`
returns on every token what `A.ValidateToken` returns, so it accepts the token `A.GenerateToken`
returns for well-formed strings and metadata keys pairwise distinct, from the second it was issued
in until the second it expires in under the expiration time of `A`, and the claims carry the
issuer and the audience of `A`. -/
theorem validateToken_ignores_issuer_audience (A B : JWTAuth) (hs : A.secret = B.secret)
    (userID username email : String) (roles : List String) (metadata : List (String × String))
    (hk : (metadata.map Prod.fst).Nodup) (now t : Int) (ht₁ : Time.truncate now Time.second ≤ t)
    (ht₂ : t < Time.truncate (now + A.expirationTime) Time.second) :
    (∀ token instant, B.validateToken golangJwt token instant = A.validateToken golangJwt token instant) ∧
    ∃ token claims, A.generateToken golangJwt userID username email roles metadata now = .ok token ∧
      B.validateToken golangJwt token t = .ok claims ∧ claims.registered.issuer = A.issuer ∧
      claims.registered.audience = [A.audience] := by
  obtain ⟨token, hg, hv⟩ := validateToken_issued hs userID username email roles metadata hk now t ht₁ ht₂
  exact ⟨validateToken_of_secret golangJwt hs, token, _, hg, hv, rfl, rfl⟩

theorem validateToken_ignores_issuer_audience_test :
    ("test-secret-key" = "test-secret-key" ∧ (([] : List (String × String)).map Prod.fst).Nodup) ∧
      Time.truncate 0 Time.second ≤ 0 ∧ 0 < Time.truncate (0 + 3600 * Time.second) Time.second ∧
      (∀ token instant, JWTAuth.validateToken golangJwt ⟨"test-secret-key", 3600 * Time.second,
          24 * 3600 * Time.second, "other-issuer", "other-audience", "HS256"⟩ token instant =
        JWTAuth.validateToken golangJwt ⟨"test-secret-key", 3600 * Time.second,
          24 * 3600 * Time.second, "test-issuer", "test-audience", "HS256"⟩ token instant) ∧
      ∃ token claims, JWTAuth.generateToken golangJwt ⟨"test-secret-key", 3600 * Time.second,
          24 * 3600 * Time.second, "test-issuer", "test-audience", "HS256"⟩ "user123" "testuser"
          "test@example.com" ["user", "admin"] [] 0 = .ok token ∧
        JWTAuth.validateToken golangJwt ⟨"test-secret-key", 3600 * Time.second,
          24 * 3600 * Time.second, "other-issuer", "other-audience", "HS256"⟩ token 0 = .ok claims ∧
        claims.registered.issuer = "test-issuer" ∧ claims.registered.audience = ["test-audience"] :=
  ⟨⟨rfl, List.nodup_nil⟩, by decide, by decide,
    validateToken_ignores_issuer_audience ⟨"test-secret-key", 3600 * Time.second, 24 * 3600 * Time.second,
      "test-issuer", "test-audience", "HS256"⟩ ⟨"test-secret-key", 3600 * Time.second,
      24 * 3600 * Time.second, "other-issuer", "other-audience", "HS256"⟩ rfl "user123" "testuser"
      "test@example.com" ["user", "admin"] [] List.nodup_nil 0 0 (by decide) (by decide)⟩

/-- The instance of the test and one with its secret but another issuer and another audience: the
second accepts the token the first generates. -/
theorem other_issuer_accepts_token :
    ∃ token claims, JWTAuth.generateToken golangJwt ⟨"test-secret-key", 3600 * Time.second,
        24 * 3600 * Time.second, "test-issuer", "test-audience", "HS256"⟩ "user123" "testuser"
        "test@example.com" ["user", "admin"] [] 0 = .ok token ∧
      JWTAuth.validateToken golangJwt ⟨"test-secret-key", 3600 * Time.second,
        24 * 3600 * Time.second, "other-issuer", "other-audience", "HS256"⟩ token 0 = .ok claims := by
  obtain ⟨token, hg, hv⟩ := @validateToken_issued ⟨"test-secret-key", 3600 * Time.second,
    24 * 3600 * Time.second, "test-issuer", "test-audience", "HS256"⟩ ⟨"test-secret-key",
    3600 * Time.second, 24 * 3600 * Time.second, "other-issuer", "other-audience", "HS256"⟩ rfl
    "user123" "testuser" "test@example.com" ["user", "admin"] [] List.nodup_nil 0 0 (by decide)
    (by decide)
  exact ⟨token, _, hg, hv⟩

/-- `RefreshToken` on the token `GenerateToken` returned, at an instant of its lifetime: before the
refresh window, which opens at the expiry moved by `-refreshTime`, it fails, and in the window it
is `GenerateToken` at that instant for the same user, roles and metadata. -/
theorem refreshToken_generateToken (j : JWTAuth) (userID username email : String)
    (roles : List String) (metadata : List (String × String)) (hk : (metadata.map Prod.fst).Nodup)
    (now t : Int) (ht₁ : Time.truncate now Time.second ≤ t)
    (ht₂ : t < Time.truncate (now + j.expirationTime) Time.second) :
    ∃ token, j.generateToken golangJwt userID username email roles metadata now = .ok token ∧
      j.refreshToken golangJwt token t =
        if t < Time.truncate (now + j.expirationTime) Time.second + Time.neg j.refreshTime then
          some (.error "token is not close to expiration")
        else some (j.generateToken golangJwt userID username email roles
          (metadata.mergeSort GolangJwt.keyLe) t) := by
  obtain ⟨token, hg, hv⟩ := validateToken_issued rfl userID username email roles metadata hk now t ht₁ ht₂
  refine ⟨token, hg, ?_⟩
  rw [refreshToken, hv]
  simp only [GolangJwt.normalize, issuedClaims, Option.map_some', Time.truncate_truncate_second]

theorem refreshToken_generateToken_test :
    (([] : List (String × String)).map Prod.fst).Nodup ∧ Time.truncate 0 Time.second ≤ 0 ∧
      0 < Time.truncate (0 + 3600 * Time.second) Time.second ∧
      ∃ token, JWTAuth.generateToken golangJwt ⟨"test-secret-key", 3600 * Time.second,
          24 * 3600 * Time.second, "test-issuer", "test-audience", "HS256"⟩ "user123" "testuser"
          "test@example.com" ["user", "admin"] [] 0 = .ok token ∧
        JWTAuth.refreshToken golangJwt ⟨"test-secret-key", 3600 * Time.second,
          24 * 3600 * Time.second, "test-issuer", "test-audience", "HS256"⟩ token 0 =
          if 0 < Time.truncate (0 + 3600 * Time.second) Time.second + Time.neg (24 * 3600 * Time.second) then
            some (.error "token is not close to expiration")
          else some (JWTAuth.generateToken golangJwt ⟨"test-secret-key", 3600 * Time.second,
            24 * 3600 * Time.second, "test-issuer", "test-audience", "HS256"⟩ "user123" "testuser"
            "test@example.com" ["user", "admin"] ([].mergeSort GolangJwt.keyLe) 0) :=
  ⟨List.nodup_nil, by decide, by decide,
    refreshToken_generateToken _ _ _ _ _ [] List.nodup_nil 0 0 (by decide) (by decide)⟩

end JWTAuth
end Auth
end ApiGateway
