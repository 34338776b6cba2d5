import ApiGateway.Strings
import ApiGateway.Time

/-!
# ApiGateway.Auth

`auth.JWTAuth`: `GenerateToken`, `ValidateToken`, `RefreshToken`, `ExtractTokenFromHeader`
and `HasRole`.

Signing and verifying are the `jwt` library's: `SignedString` with HS256 and the secret, and
`ParseWithClaims` with the key function of `ValidateToken` (which accepts the HMAC methods and
gives the secret as key). They are the operations of `Jwt`; no result below depends on what they
do. `ParseWithClaims` fails whenever the token it returns is not valid, so the `invalid token`
branch of `ValidateToken` cannot be taken and is left out. `RefreshToken` reads the expiry
through a pointer that is nil when the token has none, and then panics; its threshold is
`expirationTime.Add(-j.refreshTime)`, with the duration negated in `int64`.

* `extractTokenFromHeader_ok`: a token is extracted only from a header that is `Bearer`, one
  space and the token, which holds no space.
* `validateToken_of_extract`: such a token is passed to the library unchanged.
-/

namespace ApiGateway
namespace Auth

/-- `jwt.RegisteredClaims`. The dates are instants, truncated to the second as
`jwt.NewNumericDate` does, and none when the token has none. -/
structure RegisteredClaims where
  issuer : String
  subject : String
  audience : List String
  expiresAt : Option Int
  notBefore : Option Int
  issuedAt : Option Int
  id : String
  deriving DecidableEq, Repr

/-- `auth.Claims`. -/
structure Claims where
  userID : String
  username : String
  email : String
  roles : List String
  metadata : List (String × String)
  registered : RegisteredClaims
  deriving DecidableEq, Repr

/-- The `jwt` library: `NewWithClaims(SigningMethodHS256, claims).SignedString(key)`, and
`ParseWithClaims(token, &Claims{}, keyFunc)` for the secret `key` at the instant `now` its claim
checks read. -/
structure Jwt where
  signedString : (key : String) → Claims → Except String String
  parseWithClaims : (key : String) → (token : String) → (now : Int) → Except String Claims

/-- `auth.JWTAuth`. -/
structure JWTAuth where
  secret : String
  expirationTime : Int
  refreshTime : Int
  issuer : String
  audience : String
  algorithm : String
  deriving DecidableEq, Repr

namespace JWTAuth

/-- `GenerateToken(userID, username, email, roles, metadata)` at `now`. -/
def generateToken (jwt : Jwt) (j : JWTAuth) (userID username email : String) (roles : List String)
    (metadata : List (String × String)) (now : Int) : Except String String :=
  let claims : Claims :=
    { userID, username, email, roles, metadata
      registered :=
        { issuer := j.issuer, subject := userID, audience := [j.audience]
          expiresAt := some (Time.truncate (now + j.expirationTime) Time.second)
          notBefore := some (Time.truncate now Time.second)
          issuedAt := some (Time.truncate now Time.second), id := "" } }
  match jwt.signedString j.secret claims with
  | .ok token => .ok token
  | .error e => .error ("failed to sign token: " ++ e)

/-- `ExtractTokenFromHeader(authHeader)`. -/
def extractTokenFromHeader (authHeader : String) : Except String String :=
  if authHeader = "" then .error "authorization header is empty"
  else
    match Strings.split authHeader ' ' with
    | [scheme, token] =>
      if scheme = "Bearer" then .ok token else .error "invalid authorization header format"
    | _ => .error "invalid authorization header format"

/-- `ValidateToken(tokenString)` at `now`. -/
def validateToken (jwt : Jwt) (j : JWTAuth) (tokenString : String) (now : Int) :
    Except String Claims :=
  match jwt.parseWithClaims j.secret (Strings.trimPrefix tokenString "Bearer ") now with
  | .ok claims => .ok claims
  | .error e => .error ("token validation failed: " ++ e)

/-- `RefreshToken(tokenString)` at `now`; none when it panics on a token without expiry. -/
def refreshToken (jwt : Jwt) (j : JWTAuth) (tokenString : String) (now : Int) :
    Option (Except String String) :=
  match validateToken jwt j tokenString now with
  | .error e => some (.error ("invalid token for refresh: " ++ e))
  | .ok claims =>
    match claims.registered.expiresAt with
    | none => none
    | some expirationTime =>
      if now < expirationTime + Time.neg j.refreshTime then
        some (.error "token is not close to expiration")
      else some (generateToken jwt j claims.userID claims.username claims.email claims.roles
        claims.metadata now)

/-- `HasRole(claims, role)`. -/
def hasRole (claims : Claims) (role : String) : Bool := claims.roles.contains role

theorem hasRole_iff (claims : Claims) (role : String) :
    hasRole claims role = true ↔ role ∈ claims.roles := by
  simp [hasRole]

theorem extractTokenFromHeader_ok {authHeader token : String}
    (h : extractTokenFromHeader authHeader = .ok token) :
    authHeader = "Bearer " ++ token ∧ ' ' ∉ token.data := by
  unfold extractTokenFromHeader at h
  split at h
  · cases h
  · split at h
    · rename_i scheme t hs
      split at h
      · cases h
        obtain ⟨rfl, -, ht⟩ := Strings.split_eq_pair hs
        subst scheme
        exact ⟨String.ext (by simp), ht⟩
      · cases h
    · cases h

/-- A token without a space does not start with `Bearer `, which `ValidateToken` strips. -/
theorem trimPrefix_bearer {token : String} (h : ' ' ∉ token.data) :
    Strings.trimPrefix token "Bearer " = token := by
  unfold Strings.trimPrefix
  split
  · rename_i hp
    exact absurd ((List.isPrefixOf_iff_prefix.mp hp).subset (by decide)) h
  · rfl

theorem validateToken_of_extract (jwt : Jwt) (j : JWTAuth) {token : String} (h : ' ' ∉ token.data)
    (now : Int) : validateToken jwt j token now =
      match jwt.parseWithClaims j.secret token now with
      | .ok claims => .ok claims
      | .error e => .error ("token validation failed: " ++ e) := by
  rw [validateToken, trimPrefix_bearer h]

end JWTAuth
end Auth
end ApiGateway
