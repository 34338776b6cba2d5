import ApiGateway.Cache

/-!
# ApiGateway.Cache.LRU

`cache.LRUCache`: a Go map from keys to `lruItem` cells, and a doubly linked list of the cells
between two sentinel cells `head` and `tail`, most recently used first. A cell is a pointer into
a heap: `Ptr` `0` is `nil`, and `&lruItem{}` takes the next fresh pointer. Each method is written
as the Go code makes its pointer writes, one at a time, each reading the heap as the write
before left it. Go's map is a lookup function with its `len`.

The abstract model `Recency` is the list of entries in order of use, most recent first. `Set`
puts the entry at the front and drops the last entry when there are more than the capacity.
`Get` drops an expired entry and moves a live one to the front. `Exists` and `GetTTL` change
nothing, and `Clear` empties the list.

`Repr c ps` says that the cells `ps` are the linked list of `c` between its sentinels, that its
map finds each key's cell among them, and that its `len` is theirs. Every method keeps `Repr`
and answers as the abstract model does on the entries of `ps`, and the number of cells stays at
most the capacity or zero.

* `linked_remove`, `linked_addFront`: unlinking a cell and linking one in at the front.
* `Refines.call`: one method call on both sides.
* `lru_refines_recency`: every run of calls from `NewLRUCache(c)` answers as the abstract model,
  and holds at most `max c 0` entries.
* `lru_links_intact`: every cache such a run reaches has its list linked both ways between the
  sentinels, through distinct cells of distinct keys, and its map sends each key to its cell.
-/

namespace ApiGateway
namespace Cache

/-- A pointer to an `lruItem`; `0` is `nil`. -/
abbrev Ptr := Nat

/-- `lruItem`. -/
structure LruItem where
  key : String
  value : String
  expiration : Option Int
  prev : Ptr
  next : Ptr
  deriving DecidableEq, Repr

/-- `&lruItem{}`: every field zero. -/
def LruItem.zero : LruItem := ⟨"", "", none, 0, 0⟩

/-- The cells of the heap. -/
abbrev Heap := Ptr → LruItem

/-- `p.prev = q`. -/
def setPrev (h : Heap) (p q : Ptr) : Heap := Function.update h p { h p with prev := q }

/-- `p.next = q`. -/
def setNext (h : Heap) (p q : Ptr) : Heap := Function.update h p { h p with next := q }

@[simp] theorem setPrev_next (h : Heap) (p q x : Ptr) : (setPrev h p q x).next = (h x).next := by
  unfold setPrev; by_cases hx : x = p <;> simp [Function.update, hx]

@[simp] theorem setPrev_prev (h : Heap) (p q x : Ptr) :
    (setPrev h p q x).prev = if x = p then q else (h x).prev := by
  unfold setPrev; by_cases hx : x = p <;> simp [Function.update, hx]

@[simp] theorem setNext_prev (h : Heap) (p q x : Ptr) : (setNext h p q x).prev = (h x).prev := by
  unfold setNext; by_cases hx : x = p <;> simp [Function.update, hx]

@[simp] theorem setNext_next (h : Heap) (p q x : Ptr) :
    (setNext h p q x).next = if x = p then q else (h x).next := by
  unfold setNext; by_cases hx : x = p <;> simp [Function.update, hx]

/-- An entry of the cache: its key, its value and its expiration. -/
structure LruEntry where
  key : String
  value : String
  expiration : Option Int
  deriving DecidableEq, Repr

/-- The entry a cell holds: what the links of the list never change. -/
def LruItem.contents (n : LruItem) : LruEntry := ⟨n.key, n.value, n.expiration⟩

@[simp] theorem LruItem.contents_key (n : LruItem) : n.contents.key = n.key := rfl
@[simp] theorem LruItem.contents_value (n : LruItem) : n.contents.value = n.value := rfl
@[simp] theorem LruItem.contents_expiration (n : LruItem) : n.contents.expiration = n.expiration := rfl

@[simp] theorem contents_setPrev (h : Heap) (p q x : Ptr) :
    (setPrev h p q x).contents = (h x).contents := by
  unfold setPrev; by_cases hx : x = p <;> simp [Function.update, hx, LruItem.contents]

@[simp] theorem contents_setNext (h : Heap) (p q x : Ptr) :
    (setNext h p q x).contents = (h x).contents := by
  unfold setNext; by_cases hx : x = p <;> simp [Function.update, hx, LruItem.contents]

/-- Go's `map[string]*lruItem`: the cell of each key and the map's `len`. -/
structure GoMap where
  get : String → Option Ptr
  size : Nat

namespace GoMap

/-- `make(map[string]*lruItem)`. -/
def empty : GoMap := ⟨fun _ => none, 0⟩

/-- `m[k] = p`. -/
def insert (m : GoMap) (k : String) (p : Ptr) : GoMap :=
  ⟨Function.update m.get k (some p), if m.get k = none then m.size + 1 else m.size⟩

/-- `delete(m, k)`. -/
def delete (m : GoMap) (k : String) : GoMap :=
  ⟨Function.update m.get k none, if m.get k = none then m.size else m.size - 1⟩

end GoMap

/-- `LRUCache`: its capacity, its map, its sentinels, and the heap with its next fresh pointer. -/
structure LRUCache where
  capacity : Int
  items : GoMap
  head : Ptr
  tail : Ptr
  heap : Heap
  fresh : Ptr

/-- Whether an expiration has passed at `now`: `!expiration.IsZero() && now.After(expiration)`. -/
def isExpired (now : Int) : Option Int → Bool
  | some t => t < now
  | none => false

namespace LRUCache

/-- `NewLRUCache(capacity)`: two fresh sentinels linked to each other. -/
def new (capacity : Int) : LRUCache :=
  ⟨capacity, .empty, 1, 2, setPrev (setNext (fun _ => .zero) 1 2) 2 1, 3⟩

variable (c : LRUCache)

/-- `addToFront(item)`. -/
def addToFront (item : Ptr) : LRUCache :=
  let h₁ := setPrev c.heap item c.head
  let h₂ := setNext h₁ item (h₁ c.head).next
  let h₃ := setPrev h₂ (h₂ c.head).next item
  { c with heap := setNext h₃ c.head item }

/-- `removeItem(item)`. -/
def removeItem (item : Ptr) : LRUCache :=
  let h₁ := setNext c.heap (c.heap item).prev (c.heap item).next
  { c with heap := setPrev h₁ (h₁ item).next (h₁ item).prev }

/-- `moveToFront(item)`. -/
def moveToFront (item : Ptr) : LRUCache := (c.removeItem item).addToFront item

/-- `evictLRU()`. -/
def evictLRU : LRUCache :=
  let last := (c.heap c.tail).prev
  if last ≠ c.head then
    let c' := c.removeItem last
    { c' with items := c'.items.delete (c'.heap last).key }
  else c

/-- `Get(key)` at `now`. -/
def get (now : Int) (key : String) : Except String String × LRUCache :=
  match c.items.get key with
  | none => (.error errCacheMiss, c)
  | some item =>
    if isExpired now (c.heap item).expiration then
      let c' := c.removeItem item
      (.error errCacheMiss, { c' with items := c'.items.delete key })
    else
      let c' := c.moveToFront item
      (.ok (c'.heap item).value, c')

/-- `Set(key, value, ttl)` at `now`. -/
def set (now : Int) (key value : String) (ttl : Int) : LRUCache :=
  let expiration := if 0 < ttl then some (now + ttl) else none
  match c.items.get key with
  | some item =>
    let cell : LruItem := { c.heap item with value := value, expiration := expiration }
    let c' := { c with heap := Function.update c.heap item cell }
    c'.moveToFront item
  | none =>
    let item := c.fresh
    let cell : LruItem := { LruItem.zero with key := key, value := value, expiration := expiration }
    let c₁ := { c with heap := Function.update c.heap item cell, fresh := c.fresh + 1 }
    let c₂ := { c₁ with items := c₁.items.insert key item }
    let c₃ := c₂.addToFront item
    if c₃.capacity < c₃.items.size then c₃.evictLRU else c₃

/-- `Delete(key)`. -/
def delete (key : String) : LRUCache :=
  match c.items.get key with
  | some item =>
    let c' := c.removeItem item
    { c' with items := c'.items.delete key }
  | none => c

/-- `Exists(key)` at `now`. -/
def existsKey (now : Int) (key : String) : Bool :=
  match c.items.get key with
  | none => false
  | some item => !isExpired now (c.heap item).expiration

/-- `Clear()`. -/
def clear : LRUCache :=
  { c with items := .empty, heap := setPrev (setNext c.heap c.head c.tail) c.tail c.head }

/-- `GetTTL(key)` at `now`. -/
def getTTL (now : Int) (key : String) : Except String Int :=
  match c.items.get key with
  | none => .error errCacheMiss
  | some item =>
    match (c.heap item).expiration with
    | none => .ok (-1)
    | some t => if t - now < 0 then .ok 0 else .ok (t - now)

end LRUCache

/-! ### The linked list between the sentinels -/

/-- The cells `ps` link `a` to `b`: each `next` leads to the following cell and each `prev` back. -/
def Linked (h : Heap) : Ptr → List Ptr → Ptr → Prop
  | a, [], b => (h a).next = b ∧ (h b).prev = a
  | a, p :: ps, b => (h a).next = p ∧ (h p).prev = a ∧ Linked h p ps b

/-- A segment reads only the `next` of its cells but the last and the `prev` of its cells but the
first. -/
theorem linked_frame {h h' : Heap} {a b : Ptr} {ps : List Ptr} (hl : Linked h a ps b)
    (hn : ∀ x ∈ a :: ps, (h' x).next = (h x).next) (hp : ∀ x ∈ ps ++ [b], (h' x).prev = (h x).prev) :
    Linked h' a ps b := by
  induction ps generalizing a with
  | nil =>
    obtain ⟨h₁, h₂⟩ := hl
    exact ⟨(hn a (.head _)).trans h₁, (hp b (.head _)).trans h₂⟩
  | cons p ps ih =>
    obtain ⟨h₁, h₂, h₃⟩ := hl
    refine ⟨(hn a (.head _)).trans h₁, (hp p (.head _)).trans h₂, ih h₃ (fun x hx => hn x (.tail _ hx))
      (fun x hx => hp x (.tail _ hx))⟩

theorem headD_mem_cons {α : Type} (l : List α) (b : α) : l.headD b ∈ b :: l := by
  cases l <;> simp

/-- Unlinking a cell `x`: its neighbours `u` and `v` are linked to each other. -/
theorem linked_remove {h : Heap} {a b x : Ptr} {ps₁ ps₂ : List Ptr}
    (hl : Linked h a (ps₁ ++ x :: ps₂) b) (hnd : (a :: b :: (ps₁ ++ x :: ps₂)).Nodup) :
    Linked (setPrev (setNext h (ps₁.getLastD a) (ps₂.headD b)) (ps₂.headD b) (ps₁.getLastD a))
      a (ps₁ ++ ps₂) b := by
  induction ps₁ generalizing a with
  | nil =>
    obtain ⟨-, -, hrest⟩ := hl
    cases ps₂ with
    | nil => simp [Linked]
    | cons q qs =>
      obtain ⟨-, -, h₃⟩ := hrest
      simp only [List.nil_append, List.nodup_cons, List.mem_cons, List.mem_append, not_or] at hnd
      refine ⟨by simp, by simp, linked_frame h₃ (fun y hy => ?_) (fun y hy => ?_)⟩
      · simp only [List.getLastD_nil, List.headD_cons, setPrev_next, setNext_next]
        rw [if_neg (by rintro rfl; simp_all)]
      · simp only [List.getLastD_nil, List.headD_cons, setPrev_prev, setNext_prev]
        rw [if_neg (by rintro rfl; simp_all)]
  | cons p ps₁ ih =>
    obtain ⟨h₁, h₂, h₃⟩ := hl
    have hnd' : (p :: b :: (ps₁ ++ x :: ps₂)).Nodup :=
      (List.Perm.swap b p _).nodup_iff.mpr (List.nodup_cons.mp hnd).2
    have hua : ps₁.getLastD p ≠ a := fun e =>
      (List.nodup_cons.mp hnd).1 (.tail _ (List.mem_append_left _ (e ▸ List.getLastD_mem_cons ps₁ p)))
    have hvp : ps₂.headD b ≠ p := fun e => (List.nodup_cons.mp hnd').1 (e ▸
      List.cons_subset_cons b (fun _ hy => List.mem_append_right _ (.tail _ hy)) (headD_mem_cons ps₂ b))
    have hu : (p :: ps₁).getLastD a = ps₁.getLastD p := by
      cases ps₁ <;> simp [List.getLastD]
    rw [hu]
    refine ⟨?_, ?_, ih h₃ hnd'⟩
    · simp only [setPrev_next, setNext_next]; rw [if_neg (Ne.symm hua), h₁]
    · simp only [setPrev_prev, setNext_prev]; rw [if_neg (Ne.symm hvp), h₂]

/-- Linking the cell `x` in after `a`, in front of the cells `ps`. -/
theorem linked_addFront {h : Heap} {a b x : Ptr} {ps : List Ptr} (hl : Linked h a ps b)
    (hx : x ∉ a :: b :: ps) (hnd : (a :: b :: ps).Nodup) :
    Linked (setNext (setPrev (setNext (setPrev h x a) x (ps.headD b)) (ps.headD b) x) a x)
      a (x :: ps) b := by
  simp only [List.mem_cons, not_or] at hx
  have hxn : x ≠ ps.headD b := by
    cases ps with
    | nil => exact hx.2.1
    | cons q qs => exact fun e => hx.2.2 (e ▸ List.mem_cons_self q qs)
  refine ⟨by simp, by simp only [setNext_prev, setPrev_prev, if_neg hxn, ↓reduceIte], ?_⟩
  cases ps with
  | nil => exact ⟨by simp [hx.1], by simp⟩
  | cons q qs =>
    obtain ⟨-, -, hrest⟩ := hl
    simp only [List.nodup_cons, List.mem_cons, not_or] at hnd
    refine ⟨by simp [hx.1], by simp, linked_frame hrest (fun y hy => ?_) (fun y hy => ?_)⟩
    · simp only [List.headD_cons, setNext_next, setPrev_next]
      rw [if_neg (by rintro rfl; simp_all), if_neg (by rintro rfl; simp_all)]
    · simp only [List.headD_cons, setNext_prev, setPrev_prev]
      rw [if_neg (by rintro rfl; simp_all), if_neg (by rintro rfl; simp_all)]

/-- The neighbours a cell of a segment points to. -/
theorem linked_mid {h : Heap} {a b x : Ptr} {ps₁ ps₂ : List Ptr}
    (hl : Linked h a (ps₁ ++ x :: ps₂) b) :
    (h x).prev = ps₁.getLastD a ∧ (h x).next = ps₂.headD b := by
  induction ps₁ generalizing a with
  | nil =>
    obtain ⟨-, h₂, h₃⟩ := hl
    refine ⟨h₂, ?_⟩
    cases ps₂ with
    | nil => exact h₃.1
    | cons q qs => exact h₃.1
  | cons p ps₁ ih =>
    obtain ⟨-, -, h₃⟩ := hl
    have hu : (p :: ps₁).getLastD a = ps₁.getLastD p := by cases ps₁ <;> simp [List.getLastD]
    rw [hu]
    exact ih h₃

/-! ### The abstract model -/

namespace Recency

/-- The entry of `key`. -/
def find (l : List LruEntry) (key : String) : Option LruEntry := l.find? (·.key = key)

/-- The list without the entry of `key`. -/
def drop (l : List LruEntry) (key : String) : List LruEntry := l.filter (·.key ≠ key)

/-- `Get(key)` at `now`: an expired entry is dropped, a live one moved to the front. -/
def get (now : Int) (key : String) (l : List LruEntry) : Except String String × List LruEntry :=
  match find l key with
  | none => (.error errCacheMiss, l)
  | some e =>
    if isExpired now e.expiration then (.error errCacheMiss, drop l key)
    else (.ok e.value, e :: drop l key)

/-- `Set(key, value, ttl)` at `now`: the entry at the front, and the last entry dropped when there
are more than `capacity`. -/
def set (capacity now : Int) (key value : String) (ttl : Int) (l : List LruEntry) : List LruEntry :=
  let l' := ⟨key, value, if 0 < ttl then some (now + ttl) else none⟩ :: drop l key
  if capacity < l'.length then l'.dropLast else l'

/-- `Exists(key)` at `now`. -/
def existsKey (now : Int) (key : String) (l : List LruEntry) : Bool :=
  match find l key with
  | none => false
  | some e => !isExpired now e.expiration

/-- `GetTTL(key)` at `now`. -/
def getTTL (now : Int) (key : String) (l : List LruEntry) : Except String Int :=
  match find l key with
  | none => .error errCacheMiss
  | some e =>
    match e.expiration with
    | none => .ok (-1)
    | some t => if t - now < 0 then .ok 0 else .ok (t - now)

end Recency

/-- A method call on an LRU cache. -/
inductive LruCall where
  | get (key : String)
  | set (key value : String) (ttl : Int)
  | delete (key : String)
  | existsKey (key : String)
  | getTTL (key : String)
  | clear

/-- What a method call answers. -/
inductive LruResult where
  | value (r : Except String String)
  | done
  | present (b : Bool)
  | ttl (r : Except String Int)

/-- A call at `now` on the cache: its answer and the cache after it. -/
def LRUCache.call (c : LRUCache) (now : Int) : LruCall → LruResult × LRUCache
  | .get key => match c.get now key with | (r, c') => (.value r, c')
  | .set key value ttl => (.done, c.set now key value ttl)
  | .delete key => (.done, c.delete key)
  | .existsKey key => (.present (c.existsKey now key), c)
  | .getTTL key => (.ttl (c.getTTL now key), c)
  | .clear => (.done, c.clear)

/-- A call at `now` on the abstract model of capacity `capacity`. -/
def Recency.call (capacity now : Int) (l : List LruEntry) : LruCall → LruResult × List LruEntry
  | .get key => match Recency.get now key l with | (r, l') => (.value r, l')
  | .set key value ttl => (.done, Recency.set capacity now key value ttl l)
  | .delete key => (.done, Recency.drop l key)
  | .existsKey key => (.present (Recency.existsKey now key l), l)
  | .getTTL key => (.ttl (Recency.getTTL now key l), l)
  | .clear => (.done, [])

/-- The answers of calls at their instants, and the cache after them. -/
def LRUCache.run (c : LRUCache) : List (Int × LruCall) → List LruResult × LRUCache
  | [] => ([], c)
  | (now, k) :: ks =>
    match c.call now k with
    | (r, c') => match c'.run ks with
      | (rs, c'') => (r :: rs, c'')

/-- The answers of the abstract model to calls at their instants, and its list after them. -/
def Recency.run (capacity : Int) (l : List LruEntry) : List (Int × LruCall) → List LruResult × List LruEntry
  | [] => ([], l)
  | (now, k) :: ks =>
    match Recency.call capacity now l k with
    | (r, l') => match Recency.run capacity l' ks with
      | (rs, l'') => (r :: rs, l'')

/-! ### The representation -/

/-- The entries of the cells `ps`, in order. -/
def view (h : Heap) (ps : List Ptr) : List LruEntry := ps.map fun p => (h p).contents

/-- The cells `ps` are the list of `c` between its sentinels; its map finds each key's cell among
them, and its `len` is their number, at most the capacity or zero. -/
structure Repr (c : LRUCache) (ps : List Ptr) : Prop where
  linked : Linked c.heap c.head ps c.tail
  nodup : (c.head :: c.tail :: ps).Nodup
  lt_fresh : ∀ p ∈ c.head :: c.tail :: ps, p < c.fresh
  get_eq : ∀ k, c.items.get k = ps.find? fun p => (c.heap p).key = k
  keys : (ps.map fun p => (c.heap p).key).Nodup
  size_eq : c.items.size = ps.length

/-- The cache `c` stands for the abstract list `l`, of at most `max capacity 0` entries. -/
def Refines (c : LRUCache) (l : List LruEntry) : Prop :=
  ∃ ps, Repr c ps ∧ view c.heap ps = l ∧ (ps.length : Int) ≤ max c.capacity 0

theorem linked_head_next {h : Heap} {a b : Ptr} {ps : List Ptr} (hl : Linked h a ps b) :
    (h a).next = ps.headD b := by
  cases ps with
  | nil => exact hl.1
  | cons p ps => exact hl.1

theorem linked_tail_prev {h : Heap} {a b : Ptr} {ps : List Ptr} (hl : Linked h a ps b) :
    (h b).prev = ps.getLastD a := by
  induction ps generalizing a with
  | nil => exact hl.2
  | cons p ps ih =>
    rw [ih hl.2.2]
    cases ps <;> simp [List.getLastD]

theorem find?_append_cons_of_not {α : Type} {P : α → Bool} {x : α} (hx : P x = false)
    (l₁ l₂ : List α) : (l₁ ++ x :: l₂).find? P = (l₁ ++ l₂).find? P := by
  simp [List.find?_append, List.find?_cons, hx]

/-- The entries, the keys and the key lookups of cells depend on their contents alone. -/
theorem view_congr {h h' : Heap} {ps : List Ptr} (hc : ∀ p ∈ ps, (h' p).contents = (h p).contents) :
    view h' ps = view h ps :=
  List.map_congr_left hc

theorem key_congr {h h' : Heap} (hc : ∀ p, (h' p).contents = (h p).contents) (p : Ptr) :
    (h' p).key = (h p).key :=
  congrArg LruEntry.key (hc p)

theorem find?_key_congr {h h' : Heap} {ps : List Ptr} (hc : ∀ p ∈ ps, (h' p).key = (h p).key)
    (k : String) : ps.find? (fun p => (h' p).key = k) = ps.find? (fun p => (h p).key = k) := by
  induction ps with
  | nil => rfl
  | cons q ps ih =>
    simp only [List.find?_cons, hc q (.head _), ih fun p hp => hc p (.tail _ hp)]

theorem keys_congr {h h' : Heap} {ps : List Ptr} (hc : ∀ p ∈ ps, (h' p).key = (h p).key) :
    (ps.map fun p => (h' p).key) = ps.map fun p => (h p).key :=
  List.map_congr_left hc

theorem key_not_mem {h : Heap} {x : Ptr} {ps₁ ps₂ : List Ptr}
    (hk : ((ps₁ ++ x :: ps₂).map fun p => (h p).key).Nodup) :
    ∀ p ∈ ps₁ ++ ps₂, (h p).key ≠ (h x).key := by
  rw [List.map_append, List.map_cons, List.perm_middle.nodup_iff, List.nodup_cons,
    ← List.map_append] at hk
  exact fun p hp e => hk.1 (e ▸ List.mem_map_of_mem _ hp)

/-- Dropping the key of a cell from the entries is dropping the cell. -/
theorem drop_view {h : Heap} {x : Ptr} {ps₁ ps₂ : List Ptr}
    (hk : ((ps₁ ++ x :: ps₂).map fun p => (h p).key).Nodup) :
    Recency.drop (view h (ps₁ ++ x :: ps₂)) (h x).key = view h (ps₁ ++ ps₂) := by
  have hne := key_not_mem hk
  simp only [Recency.drop, view, List.map_append, List.map_cons, List.filter_append, List.filter_cons]
  simp only [LruItem.contents, ne_eq, not_true_eq_false, decide_False, Bool.false_eq_true, ↓reduceIte]
  rw [List.filter_eq_self.mpr, List.filter_eq_self.mpr]
  · simp only [List.mem_map, decide_eq_true_eq]
    rintro _ ⟨p, hp, rfl⟩
    exact hne p (List.mem_append_right _ hp)
  · simp only [List.mem_map, decide_eq_true_eq]
    rintro _ ⟨p, hp, rfl⟩
    exact hne p (List.mem_append_left _ hp)

namespace LRUCache

@[simp] theorem removeItem_head (c : LRUCache) (x : Ptr) : (c.removeItem x).head = c.head := rfl
@[simp] theorem removeItem_tail (c : LRUCache) (x : Ptr) : (c.removeItem x).tail = c.tail := rfl
@[simp] theorem removeItem_items (c : LRUCache) (x : Ptr) : (c.removeItem x).items = c.items := rfl
@[simp] theorem removeItem_capacity (c : LRUCache) (x : Ptr) :
    (c.removeItem x).capacity = c.capacity := rfl
@[simp] theorem removeItem_fresh (c : LRUCache) (x : Ptr) : (c.removeItem x).fresh = c.fresh := rfl
@[simp] theorem addToFront_head (c : LRUCache) (x : Ptr) : (c.addToFront x).head = c.head := rfl
@[simp] theorem addToFront_tail (c : LRUCache) (x : Ptr) : (c.addToFront x).tail = c.tail := rfl
@[simp] theorem addToFront_items (c : LRUCache) (x : Ptr) : (c.addToFront x).items = c.items := rfl
@[simp] theorem addToFront_capacity (c : LRUCache) (x : Ptr) :
    (c.addToFront x).capacity = c.capacity := rfl
@[simp] theorem addToFront_fresh (c : LRUCache) (x : Ptr) : (c.addToFront x).fresh = c.fresh := rfl

theorem removeItem_heap (c : LRUCache) {x : Ptr} (hne : (c.heap x).prev ≠ x) :
    (c.removeItem x).heap =
      setPrev (setNext c.heap (c.heap x).prev (c.heap x).next) (c.heap x).next (c.heap x).prev := by
  simp [removeItem, Ne.symm hne]

theorem addToFront_heap (c : LRUCache) {x : Ptr} (hx : x ≠ c.head) :
    (c.addToFront x).heap = setNext (setPrev (setNext (setPrev c.heap x c.head) x
      (c.heap c.head).next) (c.heap c.head).next x) c.head x := by
  simp [addToFront, Ne.symm hx]

end LRUCache

theorem find?_cell {h : Heap} {x : Ptr} {ps₁ ps₂ : List Ptr}
    (hk : ((ps₁ ++ x :: ps₂).map fun p => (h p).key).Nodup) :
    (ps₁ ++ x :: ps₂).find? (fun p => (h p).key = (h x).key) = some x := by
  have hne := key_not_mem hk
  rw [List.find?_append, List.find?_eq_none.mpr fun p hp => by
    simpa using hne p (List.mem_append_left _ hp)]
  simp

theorem sublist_remove (a b x : Ptr) (ps₁ ps₂ : List Ptr) :
    (a :: b :: (ps₁ ++ ps₂)).Sublist (a :: b :: (ps₁ ++ x :: ps₂)) :=
  .cons₂ _ (.cons₂ _ (.append_left (List.sublist_cons_self x ps₂) ps₁))

namespace Repr

variable {c : LRUCache}

/-- Unlinking the cell `x` and deleting its key from the map leaves the other cells represented,
with the entries of every cell as they were. -/
theorem remove {ps₁ ps₂ : List Ptr} {x : Ptr} (h : Repr c (ps₁ ++ x :: ps₂)) :
    Repr { c.removeItem x with items := c.items.delete (c.heap x).key } (ps₁ ++ ps₂) ∧
      ∀ p, ((c.removeItem x).heap p).contents = (c.heap p).contents := by
  obtain ⟨hl, hnd, hfr, hget, hk, hsize⟩ := h
  obtain ⟨hprev, hnext⟩ := linked_mid hl
  have hxh : x ≠ c.head := fun e => (List.nodup_cons.mp hnd).1 (by simp [e])
  have hx₁ : x ∉ ps₁ := fun hm => (List.nodup_cons.mp (List.perm_middle.nodup_iff.mp
    (List.nodup_cons.mp (List.nodup_cons.mp hnd).2).2)).1 (List.mem_append_left _ hm)
  have hxu : (c.heap x).prev ≠ x := by
    rw [hprev]
    rintro e
    rcases List.mem_cons.mp (List.getLastD_mem_cons ps₁ c.head) with h' | h'
    · exact hxh (e.symm.trans h')
    · exact hx₁ (e ▸ h')
  have hheap := c.removeItem_heap hxu
  have hcont : ∀ p, ((c.removeItem x).heap p).contents = (c.heap p).contents := fun p => by
    rw [hheap]; simp
  have hsub := sublist_remove c.head c.tail x ps₁ ps₂
  refine ⟨⟨?_, hnd.sublist hsub, fun p hp => hfr p (hsub.subset hp), fun k => ?_, ?_, ?_⟩, hcont⟩
  · show Linked (c.removeItem x).heap c.head (ps₁ ++ ps₂) c.tail
    rw [hheap, hprev, hnext]
    exact linked_remove hl hnd
  · show Function.update c.items.get (c.heap x).key none k = _
    rw [find?_key_congr fun p _ => key_congr hcont p]
    by_cases hkx : k = (c.heap x).key
    · subst hkx
      rw [Function.update_same]
      exact (List.find?_eq_none.mpr fun p hp => by simpa using key_not_mem hk p hp).symm
    · rw [Function.update_noteq hkx, hget, find?_append_cons_of_not (by simpa using Ne.symm hkx)]
  · show ((ps₁ ++ ps₂).map fun p => ((c.removeItem x).heap p).key).Nodup
    simp only [key_congr hcont]
    exact hk.sublist ((List.Sublist.append_left (List.sublist_cons_self x ps₂) ps₁).map _)
  · have hx := hget (c.heap x).key
    rw [find?_cell hk] at hx
    show (if c.items.get (c.heap x).key = none then c.items.size else c.items.size - 1) = _
    simp only [hx, reduceCtorEq, ↓reduceIte, hsize, List.length_append, List.length_cons]
    omega

theorem perm_move (a b x : Ptr) (ps₁ ps₂ : List Ptr) :
    (a :: b :: (ps₁ ++ x :: ps₂)).Perm (a :: b :: x :: (ps₁ ++ ps₂)) :=
  .cons _ (.cons _ List.perm_middle)

theorem find?_move {h : Heap} {x : Ptr} {ps₁ ps₂ : List Ptr}
    (hk : ((ps₁ ++ x :: ps₂).map fun p => (h p).key).Nodup) (k : String) :
    (x :: (ps₁ ++ ps₂)).find? (fun p => (h p).key = k) = (ps₁ ++ x :: ps₂).find? (fun p => (h p).key = k) := by
  by_cases hkx : (h x).key = k
  · subst hkx
    rw [find?_cell hk]
    simp
  · rw [find?_append_cons_of_not (by simpa using hkx)]
    simp [hkx]

/-- Moving the cell `x` to the front keeps every cell represented, in the new order, with the
entries of every cell as they were. -/
theorem moveToFront {ps₁ ps₂ : List Ptr} {x : Ptr} (h : Repr c (ps₁ ++ x :: ps₂)) :
    Repr (c.moveToFront x) (x :: (ps₁ ++ ps₂)) ∧
      ∀ p, ((c.moveToFront x).heap p).contents = (c.heap p).contents := by
  obtain ⟨hr, hcont⟩ := h.remove
  have hl' : Linked (c.removeItem x).heap c.head (ps₁ ++ ps₂) c.tail := hr.linked
  have hperm := perm_move c.head c.tail x ps₁ ps₂
  have hnd := hperm.nodup_iff.mp h.nodup
  have hx : x ∉ c.head :: c.tail :: (ps₁ ++ ps₂) := by
    have h₁ := List.nodup_cons.mp hnd
    have h₂ := List.nodup_cons.mp h₁.2
    simp only [List.mem_cons, not_or]
    exact ⟨fun e => h₁.1 (by simp [e]), fun e => h₂.1 (by simp [e]), (List.nodup_cons.mp h₂.2).1⟩
  have hxh : x ≠ c.head := fun e => hx (e ▸ List.mem_cons_self _ _)
  have hheap := (c.removeItem x).addToFront_heap hxh
  rw [LRUCache.removeItem_head, linked_head_next hl'] at hheap
  have hcont' : ∀ p, ((c.moveToFront x).heap p).contents = (c.heap p).contents := fun p => by
    show (((c.removeItem x).addToFront x).heap p).contents = (c.heap p).contents
    rw [hheap]; simp [hcont]
  refine ⟨⟨?_, hnd, fun p hp => h.lt_fresh p (hperm.mem_iff.mpr hp), fun k => ?_, ?_, ?_⟩, hcont'⟩
  · show Linked ((c.removeItem x).addToFront x).heap c.head (x :: (ps₁ ++ ps₂)) c.tail
    rw [hheap]
    exact linked_addFront hl' hx hr.nodup
  · rw [find?_key_congr fun p _ => key_congr hcont' p, find?_move h.keys]
    exact h.get_eq k
  · show ((x :: (ps₁ ++ ps₂)).map fun p => ((c.moveToFront x).heap p).key).Nodup
    simp only [key_congr hcont']
    exact (List.perm_middle.map _).nodup_iff.mp h.keys
  · show c.items.size = _
    rw [h.size_eq]
    simp only [List.length_append, List.length_cons]
    omega

/-- Writing a cell with the same links and key keeps the list represented. -/
theorem setCell {ps : List Ptr} (h : Repr c ps) (x : Ptr) (cell : LruItem)
    (hcell : cell.next = (c.heap x).next ∧ cell.prev = (c.heap x).prev ∧ cell.key = (c.heap x).key) :
    Repr { c with heap := Function.update c.heap x cell } ps := by
  have hlinks : ∀ p, (Function.update c.heap x cell p).next = (c.heap p).next ∧
      (Function.update c.heap x cell p).prev = (c.heap p).prev ∧
      (Function.update c.heap x cell p).key = (c.heap p).key := fun p => by
    by_cases hp : p = x
    · subst hp; simpa using hcell
    · simp [Function.update_noteq hp]
  refine ⟨linked_frame h.linked (fun p _ => (hlinks p).1) (fun p _ => (hlinks p).2.1), h.nodup,
    h.lt_fresh, fun k => ?_, ?_, h.size_eq⟩
  · rw [find?_key_congr fun p _ => (hlinks p).2.2]
    exact h.get_eq k
  · show (ps.map fun p => (Function.update c.heap x cell p).key).Nodup
    rw [keys_congr fun p _ => (hlinks p).2.2]
    exact h.keys

/-- A fresh cell of a key the map does not hold, linked in at the front, is represented in front
of the others. -/
theorem insertFront {ps : List Ptr} (h : Repr c ps) {key : String} (hkey : c.items.get key = none)
    (cell : LruItem) (hcell : cell.key = key) :
    Repr (LRUCache.addToFront ⟨c.capacity, c.items.insert key c.fresh, c.head, c.tail,
        Function.update c.heap c.fresh cell, c.fresh + 1⟩ c.fresh) (c.fresh :: ps) ∧
      view (LRUCache.addToFront ⟨c.capacity, c.items.insert key c.fresh, c.head, c.tail,
        Function.update c.heap c.fresh cell, c.fresh + 1⟩ c.fresh).heap (c.fresh :: ps) =
          cell.contents :: view c.heap ps := by
  set x := c.fresh
  have hx : x ∉ c.head :: c.tail :: ps := fun hm => Nat.lt_irrefl x (h.lt_fresh x hm)
  have hxp : ∀ p ∈ c.head :: c.tail :: ps, p ≠ x := fun p hp e => hx (e ▸ hp)
  set c₂ : LRUCache := ⟨c.capacity, c.items.insert key x, c.head, c.tail,
    Function.update c.heap x cell, c.fresh + 1⟩
  have hfr : ∀ p ∈ c.head :: c.tail :: ps, c₂.heap p = c.heap p := fun p hp =>
    Function.update_noteq (hxp p hp) _ _
  have hl₁ : Linked c₂.heap c.head ps c.tail := linked_frame h.linked
    (fun p hp => by rw [hfr p (List.cons_subset_cons _ (List.subset_cons_self _ _) hp)])
    (fun p hp => by rw [hfr p (.tail _ ((List.perm_append_singleton _ _).subset hp))])
  have hxh : x ≠ c₂.head := fun e => hxp c.head (.head _) e.symm
  have hheap := c₂.addToFront_heap hxh
  rw [show c₂.head = c.head from rfl, linked_head_next hl₁] at hheap
  have hcont : ∀ p, p ≠ x → ((c₂.addToFront x).heap p).contents = (c.heap p).contents := fun p hp => by
    rw [hheap]; simp [c₂, Function.update_noteq hp]
  have hxc : ((c₂.addToFront x).heap x).contents = cell.contents := by
    rw [hheap]; simp [c₂]
  have hkeys : ∀ p ∈ ps, ((c₂.addToFront x).heap p).key = (c.heap p).key := fun p hp =>
    congrArg LruEntry.key (hcont p (hxp p (.tail _ (.tail _ hp))))
  have hnone : ∀ p ∈ ps, (c.heap p).key ≠ key := fun p hp e => by
    have := h.get_eq key
    rw [hkey, eq_comm, List.find?_eq_none] at this
    exact this p hp (by simpa using e)
  refine ⟨⟨?_, ?_, ?_, fun k => ?_, ?_, ?_⟩, ?_⟩
  · rw [hheap]
    exact linked_addFront hl₁ hx h.nodup
  · show ([c.head, c.tail] ++ x :: ps).Nodup
    exact List.perm_middle.nodup_iff.mpr (List.nodup_cons.mpr ⟨hx, h.nodup⟩)
  · intro p hp
    show p < c.fresh + 1
    simp only [List.mem_cons] at hp
    rcases hp with rfl | rfl | rfl | hp
    · exact Nat.lt_succ_of_lt (h.lt_fresh _ (.head _))
    · exact Nat.lt_succ_of_lt (h.lt_fresh _ (.tail _ (.head _)))
    · exact Nat.lt_succ_self _
    · exact Nat.lt_succ_of_lt (h.lt_fresh _ (.tail _ (.tail _ hp)))
  · show Function.update c.items.get key (some x) k = _
    have hxk : ((c₂.addToFront x).heap x).key = key := (congrArg LruEntry.key hxc).trans hcell
    by_cases hk : k = key
    · subst hk
      rw [Function.update_same]
      simp [hxk]
    · rw [Function.update_noteq hk, h.get_eq, List.find?_cons, find?_key_congr hkeys]
      simp [hxk, Ne.symm hk]
  · show ((c.fresh :: ps).map fun p => ((c₂.addToFront x).heap p).key).Nodup
    rw [List.map_cons, keys_congr hkeys, List.nodup_cons]
    refine ⟨fun hm => ?_, h.keys⟩
    obtain ⟨p, hp, e⟩ := List.mem_map.mp hm
    exact hnone p hp (e.trans ((congrArg LruEntry.key hxc).trans hcell))
  · show (if c.items.get key = none then c.items.size + 1 else c.items.size) = _
    rw [if_pos hkey, h.size_eq, List.length_cons]
  · rw [view, List.map_cons, hxc, ← view, view_congr fun p hp => hcont p (hxp p (.tail _ (.tail _ hp)))]

/-- `evictLRU` of a nonempty list unlinks its last cell and deletes that cell's key. -/
theorem evictLRU_eq {ps : List Ptr} (h : Repr c ps) (hne : ps ≠ []) :
    c.evictLRU = { c.removeItem (ps.getLast hne) with
      items := c.items.delete (c.heap (ps.getLast hne)).key } := by
  have hlast : (c.heap c.tail).prev = ps.getLast hne := by
    rw [linked_tail_prev h.linked, List.getLastD_eq_getLast?, List.getLast?_eq_getLast ps hne]
    rfl
  have hnh : ps.getLast hne ≠ c.head := fun e =>
    (List.nodup_cons.mp h.nodup).1 (.tail _ (e ▸ List.getLast_mem hne))
  have h' : Repr c (ps.dropLast ++ [ps.getLast hne]) := (List.dropLast_concat_getLast hne).symm ▸ h
  have hkey := key_congr h'.remove.2 (ps.getLast hne)
  simp only [LRUCache.evictLRU, hlast, ne_eq, hnh, not_false_eq_true, ↓reduceIte,
    LRUCache.removeItem_items, hkey]

/-- The entry the abstract model finds for a key is the entry of the cell the map finds. -/
theorem find_view {ps : List Ptr} (h : Repr c ps) (k : String) :
    Recency.find (view c.heap ps) k = (c.items.get k).map fun p => (c.heap p).contents := by
  rw [h.get_eq k, Recency.find, view, List.find?_map]
  rfl

theorem mem_of_get {ps : List Ptr} (h : Repr c ps) {k : String} {x : Ptr} (hx : c.items.get k = some x) :
    x ∈ ps ∧ (c.heap x).key = k := by
  rw [h.get_eq k] at hx
  exact ⟨List.mem_of_find?_eq_some hx, by simpa using List.find?_some hx⟩

end Repr

namespace Refines

variable {c : LRUCache} {l : List LruEntry}

theorem get (h : Refines c l) (now : Int) (key : String) :
    (c.get now key).1 = (Recency.get now key l).1 ∧ Refines (c.get now key).2 (Recency.get now key l).2 ∧
      (c.get now key).2.capacity = c.capacity := by
  obtain ⟨ps, hr, rfl, hb⟩ := h
  have hf := hr.find_view key
  cases hg : c.items.get key with
  | none =>
    rw [hg, Option.map_none'] at hf
    have e₁ : c.get now key = (.error errCacheMiss, c) := by simp [LRUCache.get, hg]
    have e₂ : Recency.get now key (view c.heap ps) = (.error errCacheMiss, view c.heap ps) := by
      simp [Recency.get, hf]
    rw [e₁, e₂]
    exact ⟨rfl, ⟨ps, hr, rfl, hb⟩, rfl⟩
  | some x =>
    obtain ⟨hmem, rfl⟩ := hr.mem_of_get hg
    obtain ⟨ps₁, ps₂, rfl⟩ := List.append_of_mem hmem
    rw [hg, Option.map_some'] at hf
    simp only [LRUCache.get, hg, Recency.get, hf, LruItem.contents_expiration, LruItem.contents_value]
    split
    · obtain ⟨hr', hc'⟩ := hr.remove
      refine ⟨rfl, ⟨ps₁ ++ ps₂, hr', ?_, ?_⟩, rfl⟩
      · show view (c.removeItem x).heap (ps₁ ++ ps₂) = _
        rw [view_congr fun p _ => hc' p, drop_view hr.keys]
      · simp only [List.length_append, List.length_cons] at hb ⊢
        show _ ≤ max c.capacity 0
        omega
    · obtain ⟨hr', hc'⟩ := hr.moveToFront
      refine ⟨by rw [← LruItem.contents_value, hc' x]; rfl, ⟨x :: (ps₁ ++ ps₂), hr', ?_, ?_⟩, rfl⟩
      · rw [view_congr fun p _ => hc' p, view, List.map_cons, ← view, ← drop_view hr.keys]
      · simp only [List.length_append, List.length_cons] at hb ⊢
        show _ ≤ max c.capacity 0
        omega

theorem drop_of_find_none {l : List LruEntry} {key : String} (h : Recency.find l key = none) :
    Recency.drop l key = l :=
  List.filter_eq_self.mpr fun e he => by
    have := List.find?_eq_none.mp h e he
    simpa using this

theorem set (h : Refines c l) (now : Int) (key value : String) (ttl : Int) :
    Refines (c.set now key value ttl) (Recency.set c.capacity now key value ttl l) ∧
      (c.set now key value ttl).capacity = c.capacity := by
  obtain ⟨ps, hr, rfl, hb⟩ := h
  have hf := hr.find_view key
  set exp := if 0 < ttl then some (now + ttl) else none with hexp
  cases hg : c.items.get key with
  | some x =>
    obtain ⟨hmem, rfl⟩ := hr.mem_of_get hg
    obtain ⟨ps₁, ps₂, rfl⟩ := List.append_of_mem hmem
    set cell : LruItem := { c.heap x with value := value, expiration := exp }
    set c' : LRUCache := { c with heap := Function.update c.heap x cell }
    obtain ⟨hr', hc'⟩ := (hr.setCell x cell ⟨rfl, rfl, rfl⟩).moveToFront
    have e₁ : c.set now (c.heap x).key value ttl = c'.moveToFront x := by
      simp only [LRUCache.set, hg]
    have hx : x ∉ ps₁ ++ ps₂ := fun hm => (List.nodup_cons.mp (List.perm_middle.nodup_iff.mp
      (List.nodup_cons.mp (List.nodup_cons.mp hr.nodup).2).2)).1 hm
    have hlen : ¬ c.capacity < ((⟨(c.heap x).key, value, exp⟩ : LruEntry) ::
        Recency.drop (view c.heap (ps₁ ++ x :: ps₂)) (c.heap x).key).length := by
      rw [drop_view hr.keys]
      simp only [view, List.length_cons, List.length_map, List.length_append] at hb ⊢
      omega
    have hv : view c'.heap (ps₁ ++ ps₂) = view c.heap (ps₁ ++ ps₂) := view_congr fun p hp => by
      show (Function.update c.heap x cell p).contents = _
      rw [Function.update_noteq (show p ≠ x from fun e => hx (e ▸ hp))]
    have hvx : (c'.heap x).contents = ⟨(c.heap x).key, value, exp⟩ := by
      simp [c', cell, LruItem.contents]
    rw [e₁]
    refine ⟨⟨x :: (ps₁ ++ ps₂), hr', ?_, ?_⟩, rfl⟩
    · rw [Recency.set, if_neg hlen, drop_view hr.keys, view_congr fun p _ => hc' p, view, List.map_cons,
        ← view, hv, hvx]
    · simp only [List.length_append, List.length_cons] at hb ⊢
      show _ ≤ max c.capacity 0
      omega
  | none =>
    rw [hg, Option.map_none'] at hf
    set cell : LruItem := { LruItem.zero with key := key, value := value, expiration := exp }
    obtain ⟨hr₃, hv₃⟩ := hr.insertFront hg cell rfl
    set c₃ := LRUCache.addToFront ⟨c.capacity, c.items.insert key c.fresh, c.head, c.tail,
      Function.update c.heap c.fresh cell, c.fresh + 1⟩ c.fresh
    have e₁ : c.set now key value ttl = if c.capacity < c₃.items.size then c₃.evictLRU else c₃ := by
      simp only [LRUCache.set, hg]; rfl
    have hsize : c₃.items.size = ps.length + 1 := hr₃.size_eq
    have e₂ : Recency.set c.capacity now key value ttl (view c.heap ps) =
        if c.capacity < ((ps.length + 1 : Nat) : Int) then (cell.contents :: view c.heap ps).dropLast
        else cell.contents :: view c.heap ps := by
      rw [Recency.set, drop_of_find_none hf]
      simp only [List.length_cons, view, List.length_map]
      rfl
    rw [e₁, e₂, hsize]
    split
    · rename_i hcap
      have hne : c.fresh :: ps ≠ [] := List.cons_ne_nil _ _
      have hr₄ : Repr c₃ ((c.fresh :: ps).dropLast ++ (c.fresh :: ps).getLast hne :: []) :=
        (List.dropLast_concat_getLast hne).symm ▸ hr₃
      obtain ⟨hr₅, hc₅⟩ := hr₄.remove
      rw [hr₃.evictLRU_eq hne]
      refine ⟨⟨(c.fresh :: ps).dropLast, by simpa using hr₅, ?_, ?_⟩, rfl⟩
      · rw [view_congr fun p _ => hc₅ p, view, List.map_dropLast, ← view, hv₃]
      · show _ ≤ max c.capacity 0
        simp only [List.length_dropLast, List.length_cons, Nat.add_sub_cancel]
        omega
    · rename_i hcap
      refine ⟨⟨c.fresh :: ps, hr₃, hv₃, ?_⟩, rfl⟩
      show _ ≤ max c.capacity 0
      simp only [List.length_cons]
      push_cast at hcap ⊢
      omega

theorem delete (h : Refines c l) (key : String) :
    Refines (c.delete key) (Recency.drop l key) ∧ (c.delete key).capacity = c.capacity := by
  obtain ⟨ps, hr, rfl, hb⟩ := h
  have hf := hr.find_view key
  cases hg : c.items.get key with
  | none =>
    rw [hg, Option.map_none'] at hf
    have e₁ : c.delete key = c := by simp [LRUCache.delete, hg]
    rw [e₁, drop_of_find_none hf]
    exact ⟨⟨ps, hr, rfl, hb⟩, rfl⟩
  | some x =>
    obtain ⟨hmem, rfl⟩ := hr.mem_of_get hg
    obtain ⟨ps₁, ps₂, rfl⟩ := List.append_of_mem hmem
    obtain ⟨hr', hc'⟩ := hr.remove
    have e₁ : c.delete (c.heap x).key =
        { c.removeItem x with items := c.items.delete (c.heap x).key } := by
      simp [LRUCache.delete, hg]
    rw [e₁]
    refine ⟨⟨ps₁ ++ ps₂, hr', ?_, ?_⟩, rfl⟩
    · show view (c.removeItem x).heap (ps₁ ++ ps₂) = _
      rw [view_congr fun p _ => hc' p, drop_view hr.keys]
    · simp only [List.length_append, List.length_cons] at hb ⊢
      show _ ≤ max c.capacity 0
      omega

theorem existsKey (h : Refines c l) (now : Int) (key : String) :
    c.existsKey now key = Recency.existsKey now key l := by
  obtain ⟨ps, hr, rfl, -⟩ := h
  simp only [LRUCache.existsKey, Recency.existsKey, hr.find_view key]
  cases c.items.get key <;> rfl

theorem getTTL (h : Refines c l) (now : Int) (key : String) :
    c.getTTL now key = Recency.getTTL now key l := by
  obtain ⟨ps, hr, rfl, -⟩ := h
  simp only [LRUCache.getTTL, Recency.getTTL, hr.find_view key]
  cases c.items.get key <;> rfl

theorem clear (h : Refines c l) : Refines c.clear [] ∧ c.clear.capacity = c.capacity := by
  obtain ⟨ps, hr, -, -⟩ := h
  have hnd := hr.nodup.sublist (.cons₂ _ (.cons₂ _ (List.nil_sublist ps)))
  have hht : c.head ≠ c.tail := fun e => (List.nodup_cons.mp hr.nodup).1 (e ▸ List.mem_cons_self _ _)
  refine ⟨⟨[], ⟨⟨by simp [LRUCache.clear, hht], by simp [LRUCache.clear]⟩, hnd,
    fun p hp => hr.lt_fresh p (by simp only [List.mem_cons, List.not_mem_nil, or_false] at hp ⊢; tauto),
    fun k => rfl, List.nodup_nil, rfl⟩, rfl, ?_⟩, rfl⟩
  show (0 : Int) ≤ max c.capacity 0
  omega

/-- One call on the cache answers as the abstract model, keeps the refinement and the
capacity. -/
theorem call (h : Refines c l) (now : Int) (k : LruCall) :
    (c.call now k).1 = (Recency.call c.capacity now l k).1 ∧
      Refines (c.call now k).2 (Recency.call c.capacity now l k).2 ∧
      (c.call now k).2.capacity = c.capacity := by
  cases k with
  | get key =>
    obtain ⟨h₁, h₂, h₃⟩ := h.get now key
    exact ⟨congrArg LruResult.value h₁, h₂, h₃⟩
  | set key value ttl => exact ⟨rfl, h.set now key value ttl⟩
  | delete key => exact ⟨rfl, h.delete key⟩
  | existsKey key => exact ⟨congrArg LruResult.present (h.existsKey now key), h, rfl⟩
  | getTTL key => exact ⟨congrArg LruResult.ttl (h.getTTL now key), h, rfl⟩
  | clear => exact ⟨rfl, h.clear⟩

/-- Every run of calls on the cache answers as the abstract model and keeps the refinement and
the capacity. -/
theorem run (h : Refines c l) (calls : List (Int × LruCall)) :
    (c.run calls).1 = (Recency.run c.capacity l calls).1 ∧
      Refines (c.run calls).2 (Recency.run c.capacity l calls).2 ∧ (c.run calls).2.capacity = c.capacity := by
  induction calls generalizing c l with
  | nil => exact ⟨rfl, h, rfl⟩
  | cons nk calls ih =>
    obtain ⟨now, k⟩ := nk
    obtain ⟨h₁, h₂, h₃⟩ := h.call now k
    obtain ⟨i₁, i₂, i₃⟩ := ih h₂
    rw [h₃] at i₁ i₂
    exact ⟨congrArg₂ List.cons h₁ i₁, i₂, i₃.trans h₃⟩

theorem new (capacity : Int) : Refines (LRUCache.new capacity) [] :=
  ⟨[], ⟨⟨by simp [LRUCache.new], by simp [LRUCache.new]⟩, show ([1, 2] : List Nat).Nodup by decide,
    fun p hp => by
      simp only [List.mem_cons, List.not_mem_nil, or_false] at hp
      rcases hp with rfl | rfl
      · exact show 1 < 3 by decide
      · exact show 2 < 3 by decide,
    fun _ => rfl, List.nodup_nil, rfl⟩, rfl, by show (0 : Int) ≤ max capacity 0; omega⟩

end Refines

/-- From `NewLRUCache(capacity)`, every run of `Get`, `Set`, `Delete`, `Exists`, `GetTTL` and
`Clear` calls answers as the abstract recency list, the cache stands for that list after the run,
and its map holds at most `max capacity 0` entries. -/
theorem lru_refines_recency (capacity : Int) (calls : List (Int × LruCall)) :
    ((LRUCache.new capacity).run calls).1 = (Recency.run capacity [] calls).1 ∧
      Refines ((LRUCache.new capacity).run calls).2 (Recency.run capacity [] calls).2 ∧
      (((LRUCache.new capacity).run calls).2.items.size : Int) ≤ max capacity 0 := by
  obtain ⟨h₁, h₂, h₃⟩ := (Refines.new capacity).run calls
  refine ⟨h₁, h₂, ?_⟩
  obtain ⟨ps, hr, -, hb⟩ := h₂
  rw [hr.size_eq]
  rw [h₃] at hb
  exact hb

/-! ### The links of every reachable cache -/

/-- The structure the methods of `LRUCache` rely on: following `next` from the head sentinel
reaches the tail sentinel through distinct cells, and each cell on the way is the `prev` of the
cell its `next` names; the cells hold distinct keys, and the map sends a key to the cell holding
it, and no other key to any cell. -/
def LRUCache.Intact (c : LRUCache) : Prop :=
  ∃ ps : List Ptr,
    (c.head :: ps ++ [c.tail]).Chain' (fun x y => (c.heap x).next = y ∧ (c.heap y).prev = x) ∧
      (c.head :: c.tail :: ps).Nodup ∧ (ps.map fun p => (c.heap p).key).Nodup ∧
      ∀ k p, c.items.get k = some p ↔ p ∈ ps ∧ (c.heap p).key = k

theorem linked_chain {h : Heap} {a b : Ptr} {ps : List Ptr} (hl : Linked h a ps b) :
    (a :: ps ++ [b]).Chain' (fun x y => (h x).next = y ∧ (h y).prev = x) := by
  induction ps generalizing a with
  | nil => exact .cons hl .nil
  | cons p ps ih => exact .cons ⟨hl.1, hl.2.1⟩ (ih hl.2.2)

theorem Repr.intact {ps : List Ptr} (h : Repr c ps) : c.Intact := by
  refine ⟨ps, linked_chain h.linked, h.nodup, h.keys, fun k p => ⟨h.mem_of_get, ?_⟩⟩
  rintro ⟨hp, rfl⟩
  obtain ⟨ps₁, ps₂, rfl⟩ := List.append_of_mem hp
  rw [h.get_eq, find?_cell h.keys]

/-- Every cache reachable from `NewLRUCache(capacity)` by `Get`, `Set`, `Delete`, `Exists`,
`GetTTL` and `Clear` calls keeps its links and its map intact. -/
theorem lru_links_intact (capacity : Int) (calls : List (Int × LruCall)) :
    ((LRUCache.new capacity).run calls).2.Intact := by
  obtain ⟨-, ⟨ps, hr, -⟩, -⟩ := (Refines.new capacity).run calls
  exact hr.intact

end Cache
end ApiGateway
