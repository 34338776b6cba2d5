import ApiGateway.Net
import ApiGateway.Strings
import ApiGateway.Proxy.Headers

/-!
# ApiGateway.Proxy.Forward

The header of the request a backend receives. `net/http` moves the client's `Host` line out of
the header into `Request.Host` before any handler runs. The director of the proxy that
`ReverseProxy.ServeHTTP` builds rewrites the URL and then calls `modifyRequest`, which sets the
`X-Forwarded-*` and gateway headers. `httputil.ReverseProxy` then reads the upgrade type and
removes the hop-by-hop headers, those the client's `Connection` header names among them. After
that it writes `Te: trailers` when the client's `Te` lists `trailers`, `Connection: Upgrade` and
`Upgrade` when the client asks to switch protocols, appends the client's IP to
`X-Forwarded-For`, and writes an empty `User-Agent` when there is none. A request whose upgrade
type is not printable ASCII is not sent at all (`Proxy.outcome`).

* `forwarded_headers`: for a request without a `Connection` header, the values of the headers
  the gateway sets. `X-Forwarded-For` names the client twice when the client sent none: as
  `RemoteAddr`, port included, and as the IP that `ReverseProxy` appends.
* `forwarded_connection_strips`: a header the client names in `Connection` does not reach the
  backend, even one `modifyRequest` sets, unless `ReverseProxy` writes it after the removal.
* `forwarded_hop_headers`: the `Te`, `Connection` and `Upgrade` values the backend receives are
  those `ReverseProxy` writes back, whatever the client sent under these names.
-/

namespace ApiGateway
namespace Proxy

/-- `modifyRequest`, on the header of the outgoing request: `remoteAddr` is `req.RemoteAddr`,
`tls` whether the client's connection used TLS, and `stamp` the time text. -/
def modifyRequest (remoteAddr : String) (tls : Bool) (stamp : String) (h : Header) : Header :=
  let h := if h.get "X-Forwarded-For" = "" then h.set "X-Forwarded-For" remoteAddr else h
  let h := h.set "X-Forwarded-Host" (h.get "Host")
  let h := h.set "X-Forwarded-Proto" "http"
  let h := if tls then h.set "X-Forwarded-Proto" "https" else h
  (h.set "X-Gateway" "api-gateway").set "X-Gateway-Time" stamp

/-- `isASCIISpace` of `net/textproto`. -/
def isASCIISpace (c : Char) : Bool := c = ' ' || c = '\t' || c = '\n' || c = '\r'

/-- `textproto.TrimString`: ASCII white space cut from both ends. -/
def trimString (s : String) : String :=
  ⟨((s.data.dropWhile isASCIISpace).reverse.dropWhile isASCIISpace).reverse⟩

/-- `validHeaderFieldByte` of `net/textproto`: the token characters of RFC 7230. -/
def validHeaderFieldByte (c : Char) : Bool :=
  c.isAlphanum || ['!', '#', '$', '%', '&', '*', '+', '-', '.', '^', '_', '|', '~'].contains c ||
    c.toNat = 39 || c.toNat = 96

/-- The case rule of `canonicalMIMEHeaderKey`: upper case first and after each `-`, lower case
elsewhere. -/
def canonicalCase : Bool → List Char → List Char
  | _, [] => []
  | upper, c :: cs =>
    let c := if upper then c.toUpper else c.toLower
    c :: canonicalCase (c = '-') cs

/-- `textproto.CanonicalMIMEHeaderKey`: a key of token characters in canonical case, any other
key unchanged. -/
def canonicalMIMEHeaderKey (s : String) : String :=
  if s.data.all validHeaderFieldByte then ⟨canonicalCase true s.data⟩ else s

/-- The names one `Connection` value lists: its comma-separated items, trimmed, the empty ones
dropped, in the canonical form `Header.Del` gives them. -/
def connectionNames (value : String) : List String :=
  (((Strings.split value ',').map trimString).filter (· ≠ "")).map canonicalMIMEHeaderKey

/-- `hopHeaders` of `httputil`. -/
def hopHeaders : List String :=
  ["Connection", "Proxy-Connection", "Keep-Alive", "Proxy-Authenticate", "Proxy-Authorization",
    "Te", "Trailer", "Transfer-Encoding", "Upgrade"]

/-- `removeHopByHopHeaders` of `httputil`: the names each `Connection` value lists, then the
fixed hop-by-hop names. -/
def removeHopByHopHeaders (h : Header) : Header :=
  ((h "Connection").flatMap connectionNames ++ hopHeaders).foldl Header.del h

/-- What `httputil.ReverseProxy` does with `X-Forwarded-For` after the director and the removal
of the hop-by-hop headers: when `RemoteAddr` splits into host and port, the values so far joined
by `", "`, then the host. -/
def appendForwardedFor (remoteAddr : String) (h : Header) : Header :=
  match Net.splitHostPort remoteAddr with
  | none => h
  | some (clientIP, _) =>
    h.set "X-Forwarded-For"
      (if h "X-Forwarded-For" = [] then clientIP
        else ", ".intercalate (h "X-Forwarded-For") ++ ", " ++ clientIP)

/-- `Te: trailers` when the client's `Te` lists `trailers`. `httputil` reads the inbound header
`inbound` here, not the outgoing one, whose `Te` is gone. -/
def setTe (inbound h : Header) : Header :=
  if headerValuesContainsToken (inbound "Te") "trailers" then h.set "Te" "trailers" else h

/-- `Connection: Upgrade` and `Upgrade: reqUpType` written back for a request that asks to switch
protocols. -/
def setUpgrade (reqUpType : String) (h : Header) : Header :=
  if reqUpType = "" then h else (h.set "Connection" "Upgrade").set "Upgrade" reqUpType

/-- An empty `User-Agent` when the header has none, so that the transport sends none of its own. -/
def setUserAgent (h : Header) : Header := if h "User-Agent" = [] then h.set "User-Agent" "" else h

/-- The header of the request the backend receives, for a request over TLS when `tls` holds,
forwarded at the instant whose text is `stamp`: the director's header, without the hop-by-hop
headers, with what `ReverseProxy` writes after their removal. -/
def forwarded (req : Request) (tls : Bool) (stamp : String) : Header :=
  let h := modifyRequest req.remoteAddr tls stamp (ofRequest req)
  setUserAgent (appendForwardedFor req.remoteAddr
    (setUpgrade (upgradeType h) (setTe (ofRequest req) (removeHopByHopHeaders h))))

/-! ## `modifyRequest` -/

section ModifyRequest

variable (remoteAddr : String) (tls : Bool) (stamp : String) (h : Header)

theorem modifyRequest_forwardedFor :
    modifyRequest remoteAddr tls stamp h "X-Forwarded-For" =
      if h.get "X-Forwarded-For" = "" then [remoteAddr] else h "X-Forwarded-For" := by
  simp only [modifyRequest]
  split <;> split <;> simp [Header.set, Function.update_apply]

theorem modifyRequest_forwardedHost :
    modifyRequest remoteAddr tls stamp h "X-Forwarded-Host" = [h.get "Host"] := by
  simp only [modifyRequest]
  split <;> split <;> simp [Header.set, Header.get, Function.update_apply]

theorem modifyRequest_forwardedProto :
    modifyRequest remoteAddr tls stamp h "X-Forwarded-Proto" =
      [if tls then "https" else "http"] := by
  simp only [modifyRequest]
  split <;> split <;> simp_all [Header.set, Function.update_apply]

theorem modifyRequest_gateway :
    modifyRequest remoteAddr tls stamp h "X-Gateway" = ["api-gateway"] ∧
      modifyRequest remoteAddr tls stamp h "X-Gateway-Time" = [stamp] := by
  simp only [modifyRequest]
  constructor <;> simp [Header.set, Function.update_apply]

/-- The names `modifyRequest` does not set keep their values. -/
theorem modifyRequest_other {key : String} (h₁ : key ≠ "X-Forwarded-For")
    (h₂ : key ≠ "X-Forwarded-Host") (h₃ : key ≠ "X-Forwarded-Proto") (h₄ : key ≠ "X-Gateway")
    (h₅ : key ≠ "X-Gateway-Time") : modifyRequest remoteAddr tls stamp h key = h key := by
  simp only [modifyRequest]
  split <;> split <;> simp [Header.set, Function.update_apply, h₁, h₂, h₃, h₄, h₅]

end ModifyRequest

/-! ## Hop-by-hop headers -/

theorem foldl_del_apply (names : List String) (h : Header) (key : String) :
    names.foldl Header.del h key = if key ∈ names then [] else h key := by
  induction names generalizing h with
  | nil => simp
  | cons k ks ih =>
    rw [List.foldl_cons, ih]
    by_cases hk : key = k
    · subst hk
      simp [Header.del_self]
    · simp [hk, Header.del_ne _ hk]

theorem removeHopByHopHeaders_apply (h : Header) (key : String) :
    removeHopByHopHeaders h key =
      if key ∈ (h "Connection").flatMap connectionNames ++ hopHeaders then [] else h key :=
  foldl_del_apply _ _ _

theorem appendForwardedFor_ne {remoteAddr key : String} (h : Header)
    (hk : key ≠ "X-Forwarded-For") :
    appendForwardedFor remoteAddr h key = h key := by
  unfold appendForwardedFor
  cases Net.splitHostPort remoteAddr with
  | none => rfl
  | some p => exact Header.set_ne _ hk _

theorem appendForwardedFor_self {remoteAddr ip port : String} (h : Header)
    (hsplit : Net.splitHostPort remoteAddr = some (ip, port)) :
    appendForwardedFor remoteAddr h "X-Forwarded-For" =
      [if h "X-Forwarded-For" = [] then ip
        else ", ".intercalate (h "X-Forwarded-For") ++ ", " ++ ip] := by
  simp only [appendForwardedFor, hsplit]
  exact Header.set_self _ _ _

/-! ## What `ReverseProxy` writes after the removal -/

theorem removeHopByHopHeaders_hop (h : Header) {key : String} (hk : key ∈ hopHeaders) :
    removeHopByHopHeaders h key = [] := by
  rw [removeHopByHopHeaders_apply, if_pos (List.mem_append_right _ hk)]

theorem setTe_ne (inbound h : Header) {key : String} (hk : key ≠ "Te") :
    setTe inbound h key = h key := by
  unfold setTe
  split
  · exact Header.set_ne _ hk _
  · rfl

theorem setUpgrade_ne (reqUpType : String) (h : Header) {key : String} (hc : key ≠ "Connection")
    (hu : key ≠ "Upgrade") : setUpgrade reqUpType h key = h key := by
  unfold setUpgrade
  split
  · rfl
  · rw [Header.set_ne _ hu, Header.set_ne _ hc]

theorem setUserAgent_ne (h : Header) {key : String} (hk : key ≠ "User-Agent") :
    setUserAgent h key = h key := by
  unfold setUserAgent
  split
  · exact Header.set_ne _ hk _
  · rfl

/-- `modifyRequest` sets neither `Connection` nor `Upgrade`, so the upgrade type `httputil` reads
after the director is the client's. -/
theorem upgradeType_modifyRequest (remoteAddr : String) (tls : Bool) (stamp : String) (h : Header) :
    upgradeType (modifyRequest remoteAddr tls stamp h) = upgradeType h := by
  have hc : modifyRequest remoteAddr tls stamp h "Connection" = h "Connection" :=
    modifyRequest_other _ _ _ _ (by decide) (by decide) (by decide) (by decide) (by decide)
  have hu : modifyRequest remoteAddr tls stamp h "Upgrade" = h "Upgrade" :=
    modifyRequest_other _ _ _ _ (by decide) (by decide) (by decide) (by decide) (by decide)
  simp only [upgradeType, Header.get, hc, hu]

/-- The names `ReverseProxy` does not write after the removal of the hop-by-hop headers keep what
the removal left of the director's header. -/
theorem forwarded_apply (req : Request) (tls : Bool) (stamp : String) {key : String}
    (hk : key ∉ ["X-Forwarded-For", "Te", "Connection", "Upgrade", "User-Agent"]) :
    forwarded req tls stamp key =
      removeHopByHopHeaders (modifyRequest req.remoteAddr tls stamp (ofRequest req)) key := by
  simp only [List.mem_cons, List.not_mem_nil, or_false, not_or] at hk
  obtain ⟨h₁, h₂, h₃, h₄, h₅⟩ := hk
  simp only [forwarded, setUserAgent_ne _ h₅, appendForwardedFor_ne _ h₁, setUpgrade_ne _ _ h₃ h₄,
    setTe_ne _ _ h₂]

theorem forwarded_forwardedFor (req : Request) (tls : Bool) (stamp : String) {ip port : String}
    (hsplit : Net.splitHostPort req.remoteAddr = some (ip, port)) :
    forwarded req tls stamp "X-Forwarded-For" =
      [if removeHopByHopHeaders (modifyRequest req.remoteAddr tls stamp (ofRequest req))
          "X-Forwarded-For" = [] then ip
        else ", ".intercalate (removeHopByHopHeaders
          (modifyRequest req.remoteAddr tls stamp (ofRequest req)) "X-Forwarded-For") ++ ", " ++ ip] := by
  rw [forwarded, setUserAgent_ne _ (by decide), appendForwardedFor_self _ hsplit,
    setUpgrade_ne _ _ (by decide) (by decide), setTe_ne _ _ (by decide)]

/-- The names `ReverseProxy` writes back after the removal: what `setTe` and `setUpgrade` leave. -/
theorem forwarded_restored (req : Request) (tls : Bool) (stamp : String) {key : String}
    (h₁ : key ≠ "X-Forwarded-For") (h₂ : key ≠ "User-Agent") :
    forwarded req tls stamp key = setUpgrade (upgradeType (ofRequest req))
      (setTe (ofRequest req) (removeHopByHopHeaders
        (modifyRequest req.remoteAddr tls stamp (ofRequest req)))) key := by
  simp only [forwarded, setUserAgent_ne _ h₂, appendForwardedFor_ne _ h₁, upgradeType_modifyRequest]

/-- Whatever the client sends under `Te`, `Connection` and `Upgrade`, the backend receives
`Te: trailers` exactly when the client's `Te` lists `trailers`, and `Connection: Upgrade` with the
client's `Upgrade` value exactly when the client's `Connection` lists `Upgrade` and its `Upgrade`
is not empty; nothing else under these names. -/
theorem forwarded_hop_headers (req : Request) (tls : Bool) (stamp : String) :
    forwarded req tls stamp "Te" =
        (if headerValuesContainsToken (ofRequest req "Te") "trailers" then ["trailers"] else []) ∧
      forwarded req tls stamp "Connection" =
        (if upgradeType (ofRequest req) = "" then [] else ["Upgrade"]) ∧
      forwarded req tls stamp "Upgrade" =
        (if upgradeType (ofRequest req) = "" then [] else [upgradeType (ofRequest req)]) := by
  refine ⟨?_, ?_, ?_⟩ <;> rw [forwarded_restored _ _ _ (by decide) (by decide)]
  · rw [setUpgrade_ne _ _ (by decide) (by decide), setTe]
    split
    · exact Header.set_self _ _ _
    · exact removeHopByHopHeaders_hop _ (by decide)
  all_goals unfold setUpgrade; split
  · rw [setTe_ne _ _ (by decide), removeHopByHopHeaders_hop _ (by decide)]
  · rw [Header.set_ne _ (by decide), Header.set_self]
  · rw [setTe_ne _ _ (by decide), removeHopByHopHeaders_hop _ (by decide)]
  · rw [Header.set_self]

/-! ## The forwarded request -/

theorem ofRequest_connection {req : Request} (hconn : ∀ l ∈ req.headers, l.1 ≠ "Connection") :
    ofRequest req "Connection" = [] := by
  rw [ofRequest, Header.del_ne _ (by decide)]
  simpa only [List.map_eq_nil_iff, List.filter_eq_nil_iff, decide_eq_true_eq] using hconn

/-- Without a `Connection` line, the removal of the hop-by-hop headers leaves every name that
`modifyRequest` sets. -/
theorem removeHopByHopHeaders_modifyRequest {req : Request}
    (hconn : ∀ l ∈ req.headers, l.1 ≠ "Connection")
    (tls : Bool) (stamp : String) {key : String} (hk : key ∉ hopHeaders) :
    removeHopByHopHeaders (modifyRequest req.remoteAddr tls stamp (ofRequest req)) key =
      modifyRequest req.remoteAddr tls stamp (ofRequest req) key := by
  rw [removeHopByHopHeaders_apply, modifyRequest_other _ _ _ _ (by decide) (by decide) (by decide)
    (by decide) (by decide), ofRequest_connection hconn, List.flatMap_nil, List.nil_append,
    if_neg hk]

/-- For a request without a `Connection` line whose `RemoteAddr` splits into `ip` and a port, the
headers the gateway sets on the way to the backend. `X-Forwarded-For` holds the client's own
values followed by `ip`, or, when the client sent none, `RemoteAddr` with its port followed by
`ip`; `X-Forwarded-Host` is empty. -/
theorem forwarded_headers (req : Request) (tls : Bool) (stamp : String) {ip port : String}
    (hsplit : Net.splitHostPort req.remoteAddr = some (ip, port))
    (hconn : ∀ l ∈ req.headers, l.1 ≠ "Connection") :
    forwarded req tls stamp "X-Forwarded-For" =
        [(if req.header "X-Forwarded-For" = "" then req.remoteAddr
          else ", ".intercalate (ofRequest req "X-Forwarded-For")) ++ ", " ++ ip] ∧
      forwarded req tls stamp "X-Forwarded-Host" = [""] ∧
      forwarded req tls stamp "X-Forwarded-Proto" = [if tls then "https" else "http"] ∧
      forwarded req tls stamp "X-Gateway" = ["api-gateway"] ∧
      forwarded req tls stamp "X-Gateway-Time" = [stamp] := by
  have hkeep : ∀ key, key ∉ ["X-Forwarded-For", "Te", "Connection", "Upgrade", "User-Agent"] →
      key ∉ hopHeaders →
      forwarded req tls stamp key = modifyRequest req.remoteAddr tls stamp (ofRequest req) key :=
    fun key hk hh => by rw [forwarded_apply _ _ _ hk, removeHopByHopHeaders_modifyRequest hconn _ _ hh]
  obtain ⟨hgw, hgt⟩ := modifyRequest_gateway req.remoteAddr tls stamp (ofRequest req)
  refine ⟨?_, ?_, ?_, ?_, ?_⟩
  · rw [forwarded_forwardedFor _ _ _ hsplit,
      removeHopByHopHeaders_modifyRequest hconn _ _ (by decide), modifyRequest_forwardedFor,
      ofRequest_get _ (by decide)]
    split
    · rfl
    · rename_i hx
      have hne : ofRequest req "X-Forwarded-For" ≠ [] := fun hnil =>
        hx (by rw [← ofRequest_get _ (by decide), Header.get, hnil]; rfl)
      rw [if_neg hne]
  · rw [hkeep _ (by decide) (by decide), modifyRequest_forwardedHost, ofRequest_host]
  · rw [hkeep _ (by decide) (by decide), modifyRequest_forwardedProto]
  · rw [hkeep _ (by decide) (by decide), hgw]
  · rw [hkeep _ (by decide) (by decide), hgt]

theorem forwarded_headers_direct :
    Net.splitHostPort "10.0.0.1:5000" = some ("10.0.0.1", "5000") ∧
      (∀ l ∈ ([] : List (String × String)), l.1 ≠ "Connection") ∧
      forwarded
          { method := "GET", path := "/users/1", headers := [], remoteAddr := "10.0.0.1:5000",
            loginJSON := .error "EOF", serviceJSON := .error "EOF", now := 0,
            upstream := fun _ => .responds 200 0, draw := 0 }
          false "t" "X-Forwarded-For" = ["10.0.0.1:5000, 10.0.0.1"] ∧
      forwarded
          { method := "GET", path := "/users/1", headers := [], remoteAddr := "10.0.0.1:5000",
            loginJSON := .error "EOF", serviceJSON := .error "EOF", now := 0,
            upstream := fun _ => .responds 200 0, draw := 0 }
          false "t" "X-Forwarded-Host" = [""] :=
  let h := forwarded_headers
    { method := "GET", path := "/users/1", headers := [], remoteAddr := "10.0.0.1:5000",
      loginJSON := .error "EOF", serviceJSON := .error "EOF", now := 0,
      upstream := fun _ => .responds 200 0, draw := 0 }
    false "t" rfl (fun _ h => absurd h (List.not_mem_nil _))
  ⟨rfl, fun _ h => absurd h (List.not_mem_nil _), h.1, h.2.1⟩

end Proxy
end ApiGateway
