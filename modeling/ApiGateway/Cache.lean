import Mathlib.Data.List.Basic
import ApiGateway.Time

/-!
# ApiGateway.Cache

`cache.RedisCache`, `cache.MemoryCache` and `cache.Manager`.

A `RedisCache` stores the key `k` under `prefix:k` (`buildKey`) of a Redis database it shares
with the other caches of its client, and `Clear` deletes the keys `KEYS prefix:*` returns. The
`MemoryCache` keeps its own items. `NewManager` makes four Redis caches when caching is enabled
and a Redis client is given, with the prefixes `gateway`, `gateway:responses`, `gateway:auth` and
`gateway:ratelimit`, and otherwise one memory cache under all four names.

Redis and `go-cache` are modelled as maps from keys to entries, a value with the instant it
expires at, if any; an entry is visible up to that instant. The rounding of durations to Redis's
milliseconds and seconds belongs to the client library and is left out, and so are the errors of
an unreachable Redis. Values are texts.

* `specialized_caches_isolated`: of a manager with Redis, no `Set`, `Delete` or `Clear` on one of
  the caches `responses`, `auth`, `ratelimit` changes what `Get`, `Exists` or `GetTTL` of another
  of them answers.
* `default_cache_not_isolated`: the key `responses:k` of the default cache is the key `k` of the
  responses cache, `Clear` on the default cache empties the responses cache, and without caching
  enabled all four names share one memory cache.
-/

namespace ApiGateway

namespace Cache

/-- A stored value and the instant it expires at, if any. -/
structure Entry where
  value : String
  expiry : Option Int
  deriving DecidableEq, Repr

/-- The entry as a read at `now` sees it: gone once `now` is past its expiry. -/
def live (now : Int) : Option Entry → Option Entry
  | some e =>
    match e.expiry with
    | some t => if now ≤ t then some e else none
    | none => some e
  | none => none

/-- The expiry `SET` with an expiration gives: after a positive one, none after `0` or a negative
one, and the key's own for `KeepTTL` (`-1`). -/
def redisExpiry (now ttl : Int) (old : Option Entry) : Option Int :=
  if 0 < ttl then some (now + ttl)
  else if ttl = -1 then (old.bind Entry.expiry)
  else none

/-- Redis's glob match of `KEYS` for the special characters `*` and `?`; the patterns `Clear`
builds from the manager's prefixes hold no other. -/
def globMatch : List Char → List Char → Bool
  | [], s => s.isEmpty
  | c :: p, s =>
    if c = '*' then anySuffix (globMatch p) s
    else
      match s with
      | [] => false
      | d :: s => (c = '?' || c = d) && globMatch p s
where
  /-- Whether `f` holds of a suffix of the text. -/
  anySuffix (f : List Char → Bool) : List Char → Bool
    | [] => f []
    | d :: s => f (d :: s) || anySuffix f s

/-- `RedisCache`: the prefix of its keys and its default TTL. -/
structure RedisCache where
  keyPrefix : String
  defaultTTL : Int
  deriving DecidableEq, Repr

/-- `MemoryCache`: its default TTL. -/
structure MemoryCache where
  defaultTTL : Int
  deriving DecidableEq, Repr

/-- A Redis database or the items of a memory cache. -/
abbrev Items := String → Option Entry

/-- `ErrCacheMiss`. -/
def errCacheMiss : String := "cache miss"

namespace RedisCache

variable (r : RedisCache)

/-- `buildKey(key)`. -/
def buildKey (key : String) : String := if r.keyPrefix = "" then key else r.keyPrefix ++ ":" ++ key

/-- `Get(key)`. -/
def get (db : Items) (now : Int) (key : String) : Except String String :=
  match live now (db (r.buildKey key)) with
  | some e => .ok e.value
  | none => .error errCacheMiss

/-- `Set(key, value, ttl)`: `0` stands for the default TTL. -/
def set (db : Items) (now : Int) (key value : String) (ttl : Int) : Items :=
  let ttl := if ttl = 0 then r.defaultTTL else ttl
  Function.update db (r.buildKey key) (some ⟨value, redisExpiry now ttl (db (r.buildKey key))⟩)

/-- `Delete(key)`. -/
def delete (db : Items) (key : String) : Items := Function.update db (r.buildKey key) none

/-- `Exists(key)`. -/
def existsKey (db : Items) (now : Int) (key : String) : Bool := (live now (db (r.buildKey key))).isSome

/-- `Clear()`: every key `KEYS` finds for the pattern `buildKey("*")` deleted. -/
def clear (db : Items) : Items := fun k =>
  if globMatch (r.buildKey "*").data k.data then none else db k

/-- `GetTTL(key)`: Redis's `TTL`, `-2` for a missing key and `-1` for a key without expiry. -/
def getTTL (db : Items) (now : Int) (key : String) : Except String Int :=
  match live now (db (r.buildKey key)) with
  | none => .ok (-2)
  | some e =>
    match e.expiry with
    | none => .ok (-1)
    | some t => .ok (t - now)

end RedisCache

namespace MemoryCache

variable (m : MemoryCache)

/-- `Get(key)`. -/
def get (items : Items) (now : Int) (key : String) : Except String String :=
  match live now (items key) with
  | some e => .ok e.value
  | none => .error errCacheMiss

/-- `Set(key, value, ttl)`: `0` stands for the default TTL, and `go-cache` sets no expiry for a
duration that is not positive. -/
def set (items : Items) (now : Int) (key value : String) (ttl : Int) : Items :=
  let ttl := if ttl = 0 then m.defaultTTL else ttl
  Function.update items key (some ⟨value, if 0 < ttl then some (now + ttl) else none⟩)

/-- `Delete(key)`. -/
def delete (items : Items) (key : String) : Items := Function.update items key none

/-- `Exists(key)`. -/
def existsKey (items : Items) (now : Int) (key : String) : Bool := (live now (items key)).isSome

/-- `Clear()`: `Flush`. -/
def clear (_items : Items) : Items := fun _ => none

/-- `GetTTL(key)`. -/
def getTTL (items : Items) (now : Int) (key : String) : Except String Int :=
  match live now (items key) with
  | none => .error errCacheMiss
  | some e =>
    match e.expiry with
    | none => .ok (-1)
    | some t => if t - now < 0 then .ok 0 else .ok (t - now)

end MemoryCache

end Cache

open Cache in
/-- A value of the `Cache` interface. -/
inductive Cache where
  | redis (r : RedisCache)
  | memory (m : MemoryCache)
  deriving DecidableEq, Repr

namespace Cache

/-- The Redis database of the manager's client and the items of its memory cache. -/
structure Store where
  redis : Items
  memory : Items

/-- A store with nothing in it. -/
def Store.empty : Store := ⟨fun _ => none, fun _ => none⟩

/-- A call that changes a cache. -/
inductive Op where
  | set (key value : String) (ttl : Int)
  | delete (key : String)
  | clear

/-- `Get(key)`. -/
def get : Cache → Store → Int → String → Except String String
  | .redis r, st, now, key => r.get st.redis now key
  | .memory _, st, now, key => MemoryCache.get st.memory now key

/-- `Exists(key)`. -/
def existsKey : Cache → Store → Int → String → Bool
  | .redis r, st, now, key => r.existsKey st.redis now key
  | .memory _, st, now, key => MemoryCache.existsKey st.memory now key

/-- `GetTTL(key)`. -/
def getTTL : Cache → Store → Int → String → Except String Int
  | .redis r, st, now, key => r.getTTL st.redis now key
  | .memory _, st, now, key => MemoryCache.getTTL st.memory now key

/-- The store after `Set`, `Delete` or `Clear` at `now`. -/
def apply : Cache → Store → Int → Op → Store
  | .redis r, st, now, .set key value ttl => { st with redis := r.set st.redis now key value ttl }
  | .redis r, st, _, .delete key => { st with redis := r.delete st.redis key }
  | .redis r, st, _, .clear => { st with redis := r.clear st.redis }
  | .memory m, st, now, .set key value ttl => { st with memory := m.set st.memory now key value ttl }
  | .memory _, st, _, .delete key => { st with memory := MemoryCache.delete st.memory key }
  | .memory _, st, _, .clear => { st with memory := MemoryCache.clear st.memory }

/-- The entry a cache reads for `key`. -/
def entry : Cache → Store → String → Option Entry
  | .redis r, st, key => st.redis (r.buildKey key)
  | .memory _, st, key => st.memory key

/-- What `Get`, `Exists` and `GetTTL` answer depends on the entry the cache reads alone. -/
theorem reads_of_entry {c : Cache} {st st' : Store} {key : String} (h : c.entry st' key = c.entry st key)
    (now : Int) :
    c.get st' now key = c.get st now key ∧ c.existsKey st' now key = c.existsKey st now key ∧
      c.getTTL st' now key = c.getTTL st now key := by
  cases c <;> simp only [entry] at h <;>
    simp only [get, existsKey, getTTL, RedisCache.get, RedisCache.existsKey, RedisCache.getTTL,
      MemoryCache.get, MemoryCache.existsKey, MemoryCache.getTTL, h, and_self]

/-! ### Separated prefixes -/

theorem anySuffix_isEmpty (s : List Char) :
    globMatch.anySuffix (fun x : List Char => x.isEmpty) s = true := by
  induction s with
  | nil => rfl
  | cons d s ih => simp [globMatch.anySuffix, ih]

/-- A pattern of literal characters followed by `*` matches the texts it begins. -/
theorem globMatch_star (p : List Char) (hp : ∀ c ∈ p, c ≠ '*' ∧ c ≠ '?') (s : List Char) :
    globMatch (p ++ ['*']) s = p.isPrefixOf s := by
  induction p generalizing s with
  | nil => simp [globMatch, anySuffix_isEmpty, List.isPrefixOf]
  | cons c p ih =>
    obtain ⟨⟨hc₁, hc₂⟩, hp⟩ := List.forall_mem_cons.mp hp
    cases s with
    | nil => simp [globMatch, hc₁]
    | cons d s =>
      simp only [List.cons_append, globMatch, if_neg hc₁]
      by_cases hcd : c = d
      · subst hcd; simp [hc₂, ih hp, List.isPrefixOf]
      · simp [hc₂, hcd, List.isPrefixOf]

theorem isPrefixOf_append_eq_false {x y : List Char} (hxy : x.isPrefixOf y = false)
    (hyx : y.isPrefixOf x = false) (k : List Char) : x.isPrefixOf (y ++ k) = false := by
  rw [Bool.eq_false_iff]
  intro h
  rcases List.prefix_or_prefix_of_prefix (List.isPrefixOf_iff_prefix.mp h) (List.prefix_append y k)
    with h' | h'
  · exact absurd (List.isPrefixOf_iff_prefix.mpr h') (by simp [hxy])
  · exact absurd (List.isPrefixOf_iff_prefix.mpr h') (by simp [hyx])

/-- Two prefixes of which neither, with its colon, begins the other, and the first without the
special characters of a glob. -/
def Separated (p q : String) : Prop :=
  p ≠ "" ∧ q ≠ "" ∧ (∀ c ∈ p.data, c ≠ '*' ∧ c ≠ '?') ∧
    (p ++ ":").data.isPrefixOf (q ++ ":").data = false ∧ (q ++ ":").data.isPrefixOf (p ++ ":").data = false

instance (p q : String) : Decidable (Separated p q) := inferInstanceAs (Decidable (_ ∧ _))

theorem buildKey_of_ne {r : RedisCache} (h : r.keyPrefix ≠ "") (key : String) :
    (r.buildKey key).data = (r.keyPrefix ++ ":").data ++ key.data := by
  simp [RedisCache.buildKey, h]

/-- A change through a Redis cache leaves the entry of every key of a cache with a separated
prefix as it was. -/
theorem entry_apply_separated {r r' : RedisCache} (h : Separated r.keyPrefix r'.keyPrefix)
    (st : Store) (now : Int) (op : Op) (key : String) :
    (Cache.redis r').entry ((Cache.redis r).apply st now op) key = (Cache.redis r').entry st key := by
  obtain ⟨hp, hq, hglob, hpq, hqp⟩ := h
  have hne : ∀ k, r.buildKey k ≠ r'.buildKey key := fun k he => by
    have := isPrefixOf_append_eq_false hpq hqp key.data
    rw [← buildKey_of_ne hq, ← he, buildKey_of_ne hp] at this
    have hself := List.isPrefixOf_iff_prefix.mpr (List.prefix_append (r.keyPrefix ++ ":").data k.data)
    rw [this] at hself
    exact Bool.false_ne_true hself
  cases op with
  | set k v ttl => simp [apply, entry, RedisCache.set, Function.update_noteq (hne k).symm]
  | delete k => simp [apply, entry, RedisCache.delete, Function.update_noteq (hne k).symm]
  | clear =>
    have hpat : (r.buildKey "*").data = (r.keyPrefix ++ ":").data ++ ['*'] := buildKey_of_ne hp "*"
    have hglob' : ∀ c ∈ (r.keyPrefix ++ ":").data, c ≠ '*' ∧ c ≠ '?' := fun c hc => by
      rcases List.mem_append.mp hc with hc | hc
      · exact hglob c hc
      · rw [List.mem_singleton.mp hc]; decide
    simp only [apply, entry, RedisCache.clear, hpat, globMatch_star _ hglob', buildKey_of_ne hq,
      isPrefixOf_append_eq_false hpq hqp, Bool.false_eq_true, ↓reduceIte]

/-- `config.CacheConfig`. -/
structure CacheConfig where
  enabled : Bool
  ttl : Int
  maxSize : Int
  deriving DecidableEq, Repr

/-- `cache.Manager`: its caches by name and its default TTL. -/
structure Manager where
  caches : List (String × Cache)
  defaultTTL : Int

/-- `NewManager(cfg, redisClient, logger)`; `redisClient` says whether a client is given.
`NewMemoryCache` does not read its size. -/
def newManager (cfg : CacheConfig) (redisClient : Bool) : Manager :=
  if cfg.enabled ∧ redisClient then
    ⟨[("default", .redis ⟨"gateway", cfg.ttl⟩),
      ("responses", .redis ⟨"gateway:responses", cfg.ttl⟩),
      ("auth", .redis ⟨"gateway:auth", 3600 * Time.second⟩),
      ("ratelimit", .redis ⟨"gateway:ratelimit", 60 * Time.second⟩)], cfg.ttl⟩
  else
    ⟨[("default", .memory ⟨cfg.ttl⟩), ("responses", .memory ⟨cfg.ttl⟩), ("auth", .memory ⟨cfg.ttl⟩),
      ("ratelimit", .memory ⟨cfg.ttl⟩)], cfg.ttl⟩

/-- `GetCache(name)`: the default cache for a name it has no cache for. -/
def Manager.getCache (m : Manager) (name : String) : Option Cache :=
  match m.caches.lookup name with
  | some c => some c
  | none => m.caches.lookup "default"

/-- Of a manager with Redis, the caches `responses`, `auth` and `ratelimit` are Redis caches
with the prefix `gateway:` and their name. -/
theorem getCache_specialized (cfg : CacheConfig) (hen : cfg.enabled = true) {a : String}
    (ha : a ∈ ["responses", "auth", "ratelimit"]) :
    ∃ t, (newManager cfg true).getCache a = some (.redis ⟨"gateway:" ++ a, t⟩) := by
  simp only [List.mem_cons, List.mem_singleton, List.not_mem_nil, or_false] at ha
  simp only [newManager, hen, and_self, ↓reduceIte, Manager.getCache]
  rcases ha with rfl | rfl | rfl <;> exact ⟨_, rfl⟩

/-- Of a manager built with caching enabled and a Redis client, and two distinct caches among
`responses`, `auth` and `ratelimit`: no `Set`, `Delete` or `Clear` on the first changes what
`Get`, `Exists` or `GetTTL` of the second answers for any key. -/
theorem specialized_caches_isolated (cfg : CacheConfig) (hen : cfg.enabled = true) {a b : String}
    (ha : a ∈ ["responses", "auth", "ratelimit"]) (hb : b ∈ ["responses", "auth", "ratelimit"])
    (hab : a ≠ b) {ca cb : Cache} (hca : (newManager cfg true).getCache a = some ca)
    (hcb : (newManager cfg true).getCache b = some cb) (st : Store) (now : Int) (op : Op)
    (now' : Int) (key : String) :
    cb.get (ca.apply st now op) now' key = cb.get st now' key ∧
      cb.existsKey (ca.apply st now op) now' key = cb.existsKey st now' key ∧
      cb.getTTL (ca.apply st now op) now' key = cb.getTTL st now' key := by
  obtain ⟨ta, hta⟩ := getCache_specialized cfg hen ha
  obtain ⟨tb, htb⟩ := getCache_specialized cfg hen hb
  rw [hca, Option.some_inj] at hta
  rw [hcb, Option.some_inj] at htb
  subst hta htb
  have hsep : Separated ("gateway:" ++ a) ("gateway:" ++ b) := by
    simp only [List.mem_cons, List.mem_singleton, List.not_mem_nil, or_false] at ha hb
    rcases ha with rfl | rfl | rfl <;> rcases hb with rfl | rfl | rfl <;>
      first | exact absurd rfl hab | decide
  exact reads_of_entry (entry_apply_separated hsep st now op key) now'

theorem specialized_caches_isolated_auth :
    (⟨true, 0, 0⟩ : CacheConfig).enabled = true ∧ "responses" ∈ ["responses", "auth", "ratelimit"] ∧
      "auth" ∈ ["responses", "auth", "ratelimit"] ∧ "responses" ≠ "auth" ∧
      (newManager ⟨true, 0, 0⟩ true).getCache "responses" = some (.redis ⟨"gateway:responses", 0⟩) ∧
      (newManager ⟨true, 0, 0⟩ true).getCache "auth" = some (.redis ⟨"gateway:auth", 3600 * Time.second⟩) ∧
      (Cache.redis ⟨"gateway:auth", 3600 * Time.second⟩).get
          ((Cache.redis ⟨"gateway:responses", 0⟩).apply Store.empty 0 .clear) 0 "k" =
        (Cache.redis ⟨"gateway:auth", 3600 * Time.second⟩).get Store.empty 0 "k" :=
  ⟨rfl, by decide, by decide, by decide, rfl, rfl,
    (@specialized_caches_isolated ⟨true, 0, 0⟩ rfl "responses" "auth" (by decide) (by decide)
      (by decide) _ _ rfl rfl Store.empty 0 .clear 0 "k").1⟩

/-- The default cache shares its keys with the others: its `Set("responses:k")` is seen by `Get("k")`
of the responses cache, and its `Clear` deletes the responses cache's keys. Without caching
enabled, a `Set` on the default cache is seen by the auth cache, the same memory cache. -/
theorem default_cache_not_isolated :
    (newManager ⟨true, 0, 0⟩ true).getCache "default" = some (.redis ⟨"gateway", 0⟩) ∧
      (newManager ⟨true, 0, 0⟩ true).getCache "responses" = some (.redis ⟨"gateway:responses", 0⟩) ∧
      (Cache.redis ⟨"gateway:responses", 0⟩).get Store.empty 0 "k" = .error errCacheMiss ∧
      (Cache.redis ⟨"gateway:responses", 0⟩).get
          ((Cache.redis ⟨"gateway", 0⟩).apply Store.empty 0 (.set "responses:k" "v" 0)) 0 "k" = .ok "v" ∧
      (Cache.redis ⟨"gateway:responses", 0⟩).get
          ((Cache.redis ⟨"gateway:responses", 0⟩).apply Store.empty 0 (.set "k" "v" 0)) 0 "k" = .ok "v" ∧
      (Cache.redis ⟨"gateway:responses", 0⟩).get
          ((Cache.redis ⟨"gateway", 0⟩).apply
            ((Cache.redis ⟨"gateway:responses", 0⟩).apply Store.empty 0 (.set "k" "v" 0)) 0 .clear) 0 "k" =
        .error errCacheMiss ∧
      (newManager ⟨false, 0, 0⟩ true).getCache "default" = some (.memory ⟨0⟩) ∧
      (newManager ⟨false, 0, 0⟩ true).getCache "auth" = some (.memory ⟨0⟩) ∧
      (Cache.memory ⟨0⟩).get Store.empty 0 "k" = .error errCacheMiss ∧
      (Cache.memory ⟨0⟩).get ((Cache.memory ⟨0⟩).apply Store.empty 0 (.set "k" "v" 0)) 0 "k" = .ok "v" :=
  ⟨rfl, rfl, rfl, rfl, rfl, rfl, rfl, rfl, rfl, rfl⟩

end Cache
end ApiGateway
