import ApiGateway.Auth
import ApiGateway.Config

/-!
# ApiGateway.Http

The requests the gateway serves and the answers it gives, at the level of detail the modelled
code reads and writes.

A request carries, besides what the client sent, the environment's part in handling it: the
instant at which it is handled, what each backend does with it when it is forwarded, and the
draw of a random load balancer. The body of a request is given as `ShouldBindJSON` decodes it
into each type a handler binds.

`Ext` gathers the libraries the gateway calls whose code is not modelled: the `jwt` library, the
IPv6 text parser of `net`, and `url.Parse`.
-/

namespace ApiGateway

/-- The libraries the modelled code calls: the `jwt` library, `net.ParseIP` of IPv6 text
followed by `String()`, and `url.Parse` followed by `String()` or its error. -/
structure Ext where
  jwt : Auth.Jwt
  parseIPv6 : String → Option String
  parseURL : String → Except String String

/-- What a backend does with a forwarded request, after `latency` nanoseconds: it answers with a
status; or the transport fails (`timeout` when the error is a network timeout); or it answers with
a status and its body breaks off, after some of it was `sent` or before any. -/
inductive Upstream where
  | responds (status : Nat) (latency : Int)
  | fails (timeout : Bool) (latency : Int)
  | aborts (status : Nat) (sent : Bool) (latency : Int)
  deriving DecidableEq, Repr

/-- The latency of a backend's answer. -/
def Upstream.latency : Upstream → Int
  | .responds _ l => l
  | .fails _ l => l
  | .aborts _ _ l => l

/-- An HTTP request, with the environment's part in handling it. Header names are canonical, as
`net/http` stores them, and `Header.Get` reads the first value. -/
structure Request where
  method : String
  path : String
  headers : List (String × String)
  remoteAddr : String
  loginJSON : Except String (String × String)
  serviceJSON : Except String ServiceConfig
  now : Int
  upstream : String → Upstream
  draw : Nat

/-- `Header.Get(name)` for a canonical `name`. -/
def Request.header (r : Request) (name : String) : String := (r.headers.lookup name).getD ""

/-- The body of a response. -/
inductive Body where
  /-- Nothing written. -/
  | empty
  /-- `gin.H{"error": msg}`, with the `retry_after` of a refused rate-limit check. -/
  | error (msg : String) (retryAfter : Option Nat)
  /-- `gin.H{"message": msg}`. -/
  | message (msg : String)
  /-- A plain text, as `http.Error` and gin's default 404 write it. -/
  | text (msg : String)
  /-- The document a handler returns on success. -/
  | document (handler : String)
  /-- The active configuration, as `getConfig` returns it. -/
  | config (c : Config)
  /-- `gin.H{"token": token, "type": tokenType, "expires": expires}`, the answer of `login` and
  `refreshToken`. -/
  | token (token tokenType expires : String)
  /-- The answer of the backend at `target`. -/
  | upstream (target : String)
  /-- The answer of the backend at `target` as far as it came before its body broke off, and
  after it what the `Recovery` stage writes. -/
  | cut (target : String)
  deriving DecidableEq, Repr

/-- A response: status, headers set in order, and body. -/
structure Response where
  status : Nat
  headers : List (String × String)
  body : Body
  deriving DecidableEq, Repr

end ApiGateway
