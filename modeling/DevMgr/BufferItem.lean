import DevMgr.GlobalDef
import Mathlib.Data.List.TakeDrop
/-!
# BufferItem — the sliding byte buffer

`BufferItem.cpp`: an allocation (`mem`, the bytes from `_head` up to `_end`; `head` is `_head != NULL`) with the data
between `_data` and `_tail`, positions counted from `_head`.  `put` and `push` return the item and the place of the
`len` bytes; `putBytes` is `memcpy(Put(n), bs, n)`; `new` is the constructed item, before any `Alloc`.  An operation
whose assertion fails is an error naming that assertion; with the assertions compiled out, those are the calls after
which the code reads or writes outside the allocation.  `Expand` asserts nothing: its error is the `memcpy` that goes
past the new block, where `room() + len` wraps.  Newly allocated bytes are whatever `new` returned (`fresh`).  `Pull`
asserts nothing about `len`; its callers pull at most `data_size()`, so its subtraction does not wrap.

`Good` is the invariant; under it each operation is an operation on the held bytes (`content`).
-/
namespace DevMgr

inductive Assertion where
  | resetRoom
  | reserveUsed
  | headNull
  | putEnd
  | pushHead
  | expandCopy
  deriving DecidableEq, Repr

structure BufferItem where
  head : Bool
  mem : List BYTE
  data : Nat
  tail : Nat
  dataLen : Nat
  deriving DecidableEq, Repr

namespace BufferItem

def new : BufferItem := { head := false, mem := [], data := 0, tail := 0, dataLen := 0 }

def room (b : BufferItem) : Nat := b.mem.length
def dataSize (b : BufferItem) : Nat := b.dataLen
def headSize (b : BufferItem) : Nat := b.data
def tailSize (b : BufferItem) : Nat := b.mem.length - b.tail

def reset (b : BufferItem) (len : Nat) : Except Assertion BufferItem :=
  if len ≤ b.mem.length then .ok { b with data := len, tail := len, dataLen := 0 } else .error .resetRoom

def newBytes (fresh : Nat → BYTE) (size : Nat) : List BYTE := (List.range size).map fresh

def alloc (b : BufferItem) (size : Nat) (fresh : Nat → BYTE) : Except Assertion BufferItem :=
  (if b.room < size then { b with head := true, mem := newBytes fresh size } else b).reset 0

/-- The new block is of `room() + len` bytes as a `UINT`, and `room()` bytes are copied to it. -/
def expand (b : BufferItem) (len : Nat) (fresh : Nat → BYTE) : Except Assertion BufferItem :=
  if b.room + len < 2 ^ 32 then
    .ok { b with head := true, mem := b.mem ++ newBytes fresh len, tail := b.data + b.dataLen }
  else .error .expandCopy

def reserve (b : BufferItem) (len : Nat) : Except Assertion BufferItem :=
  if b.dataLen = 0 then .ok { b with data := b.data + len, tail := b.data + len } else .error .reserveUsed

def put (b : BufferItem) (len : Nat) : Except Assertion (BufferItem × Nat) :=
  if !b.head then .error .headNull
  else if b.tail + len ≤ b.mem.length then .ok ({ b with tail := b.tail + len, dataLen := b.dataLen + len }, b.tail)
  else .error .putEnd

def push (b : BufferItem) (len : Nat) : Except Assertion (BufferItem × Nat) :=
  if !b.head then .error .headNull
  else if len ≤ b.data then .ok ({ b with data := b.data - len, dataLen := b.dataLen + len }, b.data - len)
  else .error .pushHead

def pull (b : BufferItem) (len : Nat) : Except Assertion BufferItem :=
  if !b.head then .error .headNull else .ok { b with data := b.data + len, dataLen := b.dataLen - len }

/-- Bytes stored at a place of the allocation (`memcpy`, `strncpy`, a field assignment). -/
def write (b : BufferItem) (at_ : Nat) (bs : List BYTE) : BufferItem :=
  { b with mem := b.mem.take at_ ++ bs ++ b.mem.drop (at_ + bs.length) }

def content (b : BufferItem) : List BYTE := (b.mem.drop b.data).take b.dataLen

def putBytes (b : BufferItem) (bs : List BYTE) : Except Assertion BufferItem :=
  match b.put bs.length with
  | .error e => .error e
  | .ok (b', p) => .ok (b'.write p bs)

/-- **The representation invariant**: `_tail = _data + _data_len`, at or before `_end`. -/
structure Good (b : BufferItem) : Prop where
  head : b.head = true
  tail : b.tail = b.data + b.dataLen
  bound : b.tail ≤ b.mem.length

theorem Good.length_content {b : BufferItem} (h : b.Good) : b.content.length = b.dataLen := by
  have h1 := h.tail
  have h2 := h.bound
  simp only [content, List.length_take, List.length_drop]
  omega

theorem Good.dataSize_eq {b : BufferItem} (h : b.Good) : b.dataSize = b.content.length := h.length_content.symm

@[simp] theorem length_newBytes (fresh : Nat → BYTE) (size : Nat) : (newBytes fresh size).length = size := by
  simp [newBytes]

theorem newBytes_succ (fresh : Nat → BYTE) (n : Nat) :
    newBytes fresh (n + 1) = fresh 0 :: newBytes (fun i => fresh (i + 1)) n := by
  simp [newBytes, List.range_succ_eq_map]

theorem content_nil {b : BufferItem} (h : b.dataLen = 0) : b.content = [] := by
  simp [content, h]

/-- **A reset item is empty, `len` bytes into its allocation.** -/
theorem reset_spec {b : BufferItem} (hh : b.head = true) {len : Nat} (hl : len ≤ b.room) :
    ∃ b', b.reset len = .ok b' ∧ b'.Good ∧ b'.content = [] ∧ b'.data = len ∧ b'.room = b.room := by
  refine ⟨{ b with data := len, tail := len, dataLen := 0 }, ?_, ⟨hh, rfl, hl⟩, content_nil rfl, rfl, rfl⟩
  exact if_pos hl

/-- **An allocated item is empty, at the start of an allocation of at least `size` bytes.** -/
theorem alloc_spec {b : BufferItem} {size : Nat} (hs : 0 < size) (hb : b.room ≠ 0 → b.head = true)
    (fresh : Nat → BYTE) :
    ∃ b', b.alloc size fresh = .ok b' ∧ b'.Good ∧ b'.content = [] ∧ b'.data = 0 ∧ b'.room = max b.room size := by
  unfold alloc
  split
  · rename_i hr
    obtain ⟨b', h1, h2, h3, h4, h5⟩ := reset_spec (b := { b with head := true, mem := newBytes fresh size }) rfl
      (Nat.zero_le _)
    refine ⟨b', h1, h2, h3, h4, ?_⟩
    rw [h5, Nat.max_eq_right (Nat.le_of_lt hr)]
    exact length_newBytes fresh size
  · rename_i hr
    obtain ⟨b', h1, h2, h3, h4, h5⟩ := reset_spec (b := b) (hb (by omega)) (Nat.zero_le _)
    exact ⟨b', h1, h2, h3, h4, by rw [h5]; omega⟩

theorem reserve_spec {b : BufferItem} (h : b.Good) (h0 : b.content = []) {len : Nat} (hl : b.data + len ≤ b.room) :
    ∃ b', b.reserve len = .ok b' ∧ b'.Good ∧ b'.content = [] ∧ b'.data = b.data + len ∧ b'.room = b.room := by
  have hd : b.dataLen = 0 := by rw [← h.length_content, h0]; rfl
  refine ⟨{ b with data := b.data + len, tail := b.data + len }, ?_, ⟨h.head, ?_, hl⟩, content_nil hd, rfl, rfl⟩
  · rw [reserve, if_pos hd]
  · show b.data + len = b.data + len + b.dataLen
    omega

theorem drop_write (m : List BYTE) (d t : Nat) (bs : List BYTE) (hd : d ≤ t) (ht : t + bs.length ≤ m.length) :
    ((m.take t ++ bs ++ m.drop (t + bs.length)).drop d).take (t - d + bs.length) = (m.drop d).take (t - d) ++ bs := by
  have h1 : (m.take t).length = t := by rw [List.length_take]; omega
  rw [List.append_assoc, List.drop_append_of_le_length (by omega), ← List.append_assoc]
  have h2 : (m.take t).drop d = (m.drop d).take (t - d) := by rw [List.drop_take]
  have h3 : ((m.drop d).take (t - d)).length = t - d := by rw [List.length_take, List.length_drop]; omega
  rw [h2, List.take_left' (by rw [List.length_append, h3])]

/-- **`Put` and a copy append**, exactly when the bytes fit before `_end`. -/
theorem putBytes_spec {b : BufferItem} (h : b.Good) (bs : List BYTE)
    (hfit : b.data + b.content.length + bs.length ≤ b.room) :
    ∃ b', b.putBytes bs = .ok b' ∧ b'.Good ∧ b'.content = b.content ++ bs ∧ b'.data = b.data ∧ b'.room = b.room := by
  have ht := h.tail
  rw [h.length_content] at hfit
  have hb : b.tail + bs.length ≤ b.mem.length := by rw [ht]; exact hfit
  refine ⟨({ b with tail := b.tail + bs.length, dataLen := b.dataLen + bs.length }).write b.tail bs, ?_,
    ⟨h.head, ?_, ?_⟩, ?_, rfl, ?_⟩
  · unfold putBytes put
    rw [if_neg (by simp [h.head]), if_pos hb]
  · show b.tail + bs.length = b.data + (b.dataLen + bs.length)
    omega
  · show b.tail + bs.length ≤ (b.mem.take b.tail ++ bs ++ b.mem.drop (b.tail + bs.length)).length
    simp only [List.length_append, List.length_take, List.length_drop]
    omega
  · show ((b.mem.take b.tail ++ bs ++ b.mem.drop (b.tail + bs.length)).drop b.data).take (b.dataLen + bs.length)
      = (b.mem.drop b.data).take b.dataLen ++ bs
    have hdl : b.dataLen = b.tail - b.data := by omega
    rw [hdl]
    exact drop_write b.mem b.data b.tail bs (by omega) hb
  · show (b.mem.take b.tail ++ bs ++ b.mem.drop (b.tail + bs.length)).length = b.mem.length
    simp only [List.length_append, List.length_take, List.length_drop]
    omega

/-- **`Put` past `_end` fails its assertion.** -/
theorem putBytes_overrun {b : BufferItem} (h : b.Good) (bs : List BYTE)
    (hover : b.room < b.data + b.content.length + bs.length) : b.putBytes bs = .error .putEnd := by
  have ht := h.tail
  rw [h.length_content, room] at hover
  unfold putBytes put
  rw [if_neg (by simp [h.head]), if_neg (by omega)]

/-- **`Pull` drops from the front.** -/
theorem pull_spec {b : BufferItem} (h : b.Good) {len : Nat} (hl : len ≤ b.content.length) :
    ∃ b', b.pull len = .ok b' ∧ b'.Good ∧ b'.content = b.content.drop len ∧ b'.data = b.data + len ∧
      b'.room = b.room := by
  have ht := h.tail
  rw [h.length_content] at hl
  refine ⟨{ b with data := b.data + len, dataLen := b.dataLen - len }, ?_, ⟨h.head, ?_, h.bound⟩, ?_, rfl, rfl⟩
  · rw [pull, if_neg (by simp [h.head])]
  · show b.tail = b.data + len + (b.dataLen - len)
    omega
  · show (b.mem.drop (b.data + len)).take (b.dataLen - len) = ((b.mem.drop b.data).take b.dataLen).drop len
    rw [List.drop_take, List.drop_drop]

/-- **`Expand` makes room and keeps the data**, when its size does not wrap. -/
theorem expand_spec {b : BufferItem} (h : b.Good) {len : Nat} (hlen : b.room + len < 2 ^ 32) (fresh : Nat → BYTE) :
    ∃ b', b.expand len fresh = .ok b' ∧ b'.Good ∧ b'.content = b.content ∧ b'.tail = b.tail ∧
      b'.room = b.room + len := by
  have ht := h.tail
  have hb := h.bound
  refine ⟨_, if_pos hlen, ⟨rfl, rfl, ?_⟩, ?_, ht.symm, ?_⟩
  · show b.data + b.dataLen ≤ (b.mem ++ newBytes fresh len).length
    rw [List.length_append]
    omega
  · show ((b.mem ++ newBytes fresh len).drop b.data).take b.dataLen = (b.mem.drop b.data).take b.dataLen
    rw [List.drop_append_of_le_length (by omega), List.take_append_of_le_length (by rw [List.length_drop]; omega)]
  · show (b.mem ++ newBytes fresh len).length = b.mem.length + len
    rw [List.length_append, length_newBytes]

/-- What an `Expand` whose size does not wrap leaves where it was. -/
theorem expand_some {b b' : BufferItem} {len : Nat} {fresh : Nat → BYTE} (h : b.expand len fresh = .ok b') :
    b'.head = true ∧ b'.data = b.data ∧ b'.dataLen = b.dataLen ∧ b'.room = b.room + len := by
  unfold expand at h
  split at h
  · cases h
    refine ⟨rfl, rfl, rfl, ?_⟩
    show (b.mem ++ newBytes fresh len).length = b.mem.length + len
    rw [List.length_append, length_newBytes]
  · cases h

/-- What stands from `_data` on after a store at `_tail`. -/
theorem drop_write_tail {b : BufferItem} (h : b.Good) (bs : List BYTE) :
    (b.write b.tail bs).mem.drop b.data = b.content ++ bs ++ b.mem.drop (b.tail + bs.length) := by
  have ht := h.tail
  have hb := h.bound
  have hd : (b.mem.take b.data).length = b.data := by rw [List.length_take]; omega
  have htake : b.mem.take b.tail = b.mem.take b.data ++ b.content := by rw [ht, List.take_add, content]
  show (b.mem.take b.tail ++ bs ++ b.mem.drop (b.tail + bs.length)).drop b.data = _
  rw [htake, List.append_assoc, List.append_assoc, List.drop_left' hd, List.append_assoc]

theorem length_write_ge (b : BufferItem) (at_ : Nat) (bs : List BYTE) : b.room ≤ (b.write at_ bs).room := by
  unfold write room
  simp only [List.length_append, List.length_take, List.length_drop]
  omega

theorem length_write {b : BufferItem} {at_ : Nat} {bs : List BYTE} (h : at_ + bs.length ≤ b.room) :
    (b.write at_ bs).room = b.room := by
  unfold room at h
  unfold write room
  simp only [List.length_append, List.length_take, List.length_drop]
  omega

/-- Bytes outside a store are unchanged. -/
theorem getElem?_write {b : BufferItem} {at_ : Nat} (h : at_ ≤ b.mem.length) (bs : List BYTE) {i : Nat}
    (hi : i < at_ ∨ at_ + bs.length ≤ i) : (b.write at_ bs).mem[i]? = b.mem[i]? := by
  have ht : (b.mem.take at_).length = at_ := by rw [List.length_take]; omega
  show (b.mem.take at_ ++ bs ++ b.mem.drop (at_ + bs.length))[i]? = b.mem[i]?
  rcases hi with hi | hi
  · rw [List.append_assoc, List.getElem?_append_left (by omega), List.getElem?_take_of_lt hi]
  · have hl : (b.mem.take at_ ++ bs).length = at_ + bs.length := by rw [List.length_append, ht]
    rw [List.getElem?_append_right (by omega), hl, List.getElem?_drop, Nat.add_sub_cancel' hi]

theorem drop_write_self {b : BufferItem} {at_ : Nat} (h : at_ ≤ b.mem.length) (bs : List BYTE) :
    (b.write at_ bs).mem.drop at_ = bs ++ b.mem.drop (at_ + bs.length) := by
  show (b.mem.take at_ ++ bs ++ b.mem.drop (at_ + bs.length)).drop at_ = _
  rw [List.append_assoc, List.drop_left' (by rw [List.length_take]; omega)]

/-- The allocation has `bs` at a place. -/
def Holds (b : BufferItem) (at_ : Nat) (bs : List BYTE) : Prop := ∀ j, j < bs.length → b.mem[at_ + j]? = bs[j]?

theorem holds_write {b : BufferItem} {at_ : Nat} (h : at_ ≤ b.mem.length) (bs : List BYTE) :
    (b.write at_ bs).Holds at_ bs := by
  intro j hj
  rw [← List.getElem?_drop, drop_write_self h, List.getElem?_append_left hj]

/-- A store elsewhere leaves it. -/
theorem Holds.write {b : BufferItem} {o at_ : Nat} {bs cs : List BYTE} (h : b.Holds o bs) (hat : at_ ≤ b.mem.length)
    (hsep : o + bs.length ≤ at_ ∨ at_ + cs.length ≤ o) : (b.write at_ cs).Holds o bs := by
  intro j hj
  rw [getElem?_write hat _ (by omega), h j hj]

/-- A string and its zero are read as the string. -/
theorem Holds.cString {b : BufferItem} {o : Nat} {str : List BYTE} (h : b.Holds o (str ++ [0])) (h0 : 0 ∉ str) :
    cString (b.mem.drop o) = some str := by
  have hp : str ++ [0] <+: b.mem.drop o := by
    rw [List.prefix_iff_getElem?]
    intro j hj
    rw [List.getElem?_drop, h j hj, List.getElem?_eq_getElem hj]
  obtain ⟨t, ht⟩ := hp
  rw [List.append_assoc, List.singleton_append] at ht
  exact cString_eq_some.2 ⟨h0, t, ht.symm⟩

/-- The bytes at a place are the bytes that are held there. -/
theorem Holds.take {b : BufferItem} {o : Nat} {bs : List BYTE} (h : b.Holds o bs) :
    (b.mem.drop o).take bs.length = bs := by
  apply List.ext_getElem?
  intro j
  by_cases hj : j < bs.length
  · rw [List.getElem?_take_of_lt hj, List.getElem?_drop, h j hj]
  · rw [List.getElem?_take_eq_none (Nat.le_of_not_lt hj), List.getElem?_eq_none (Nat.le_of_not_lt hj)]

theorem Holds.of_prefix {b : BufferItem} {o : Nat} {bs cs : List BYTE} (h : b.Holds o (bs ++ cs)) : b.Holds o bs := by
  intro j hj
  rw [h j (by rw [List.length_append]; omega), List.getElem?_append_left hj]

/-- Stores one after the other. -/
def writes (b : BufferItem) (stores : List (Nat × List BYTE)) : BufferItem :=
  stores.foldl (fun b s => b.write s.1 s.2) b

/-- Stores do not move the data. -/
theorem writes_keeps (b : BufferItem) (stores : List (Nat × List BYTE)) : (b.writes stores).head = b.head ∧
    (b.writes stores).data = b.data ∧ (b.writes stores).tail = b.tail ∧ (b.writes stores).dataLen = b.dataLen := by
  induction stores generalizing b with
  | nil => exact ⟨rfl, rfl, rfl, rfl⟩
  | cons s ss ih => exact ih (b.write s.1 s.2)

/-- Two stores that do not overlap. -/
def Apart (s t : Nat × List BYTE) : Prop := s.1 + s.2.length ≤ t.1 ∨ t.1 + t.2.length ≤ s.1

theorem length_writes_ge (b : BufferItem) (stores : List (Nat × List BYTE)) : b.room ≤ (b.writes stores).room := by
  induction stores generalizing b with
  | nil => exact Nat.le_refl _
  | cons s ss ih => exact (length_write_ge b s.1 s.2).trans (ih _)

theorem Holds.writes {b : BufferItem} {o : Nat} {bs : List BYTE} (h : b.Holds o bs) {stores : List (Nat × List BYTE)}
    (hin : ∀ s ∈ stores, s.1 ≤ b.room) (hsep : ∀ s ∈ stores, Apart (o, bs) s) : (b.writes stores).Holds o bs := by
  induction stores generalizing b with
  | nil => exact h
  | cons s ss ih =>
    apply ih (h.write (hin s List.mem_cons_self) (hsep s List.mem_cons_self))
    · intro t ht
      exact (hin t (List.mem_cons_of_mem _ ht)).trans (length_write_ge ..)
    · intro t ht
      exact hsep t (List.mem_cons_of_mem _ ht)

/-- **Stores that do not overlap are all there.** -/
theorem holds_writes {b : BufferItem} {stores : List (Nat × List BYTE)} (hin : ∀ s ∈ stores, s.1 ≤ b.room)
    (hsep : stores.Pairwise Apart) : ∀ s ∈ stores, (b.writes stores).Holds s.1 s.2 := by
  induction stores generalizing b with
  | nil => exact fun s hs => by cases hs
  | cons s ss ih =>
    have hin' : ∀ t ∈ ss, t.1 ≤ (b.write s.1 s.2).room := fun t ht =>
      (hin t (List.mem_cons_of_mem _ ht)).trans (length_write_ge ..)
    rw [List.pairwise_cons] at hsep
    intro t ht
    rcases List.mem_cons.1 ht with rfl | ht
    · exact (holds_write (hin t List.mem_cons_self) t.2).writes hin' hsep.1
    · exact ih hin' hsep.2 t ht

/-- What an `Alloc` that passes its assertion leaves. -/
theorem alloc_some {b b' : BufferItem} {size : Nat} {fresh : Nat → BYTE} (h : b.alloc size fresh = .ok b') :
    b'.data = 0 ∧ b'.tail = 0 ∧ b'.dataLen = 0 ∧ size ≤ b'.room := by
  unfold alloc reset at h
  rw [if_pos (Nat.zero_le _)] at h
  cases h
  refine ⟨rfl, rfl, rfl, ?_⟩
  show size ≤ (if b.room < size then { b with head := true, mem := newBytes fresh size } else b).room
  split
  · exact (length_newBytes fresh size).ge
  · exact Nat.le_of_not_lt ‹_›

theorem put_of_room {b : BufferItem} (hh : b.head = true) {len : Nat} (hl : b.tail + len ≤ b.room) :
    b.put len = .ok ({ b with tail := b.tail + len, dataLen := b.dataLen + len }, b.tail) := by
  rw [put, if_neg (by simp [hh]), if_pos (show b.tail + len ≤ b.mem.length from hl)]

/-- What a `Put` that passes its assertions does. -/
theorem put_some {b b' : BufferItem} {len p : Nat} (h : b.put len = .ok (b', p)) : b.tail + len ≤ b.room ∧ p = b.tail ∧
    b' = { b with tail := b.tail + len, dataLen := b.dataLen + len } := by
  unfold put at h
  split at h
  · cases h
  · split at h
    · cases h
      exact ⟨‹_›, rfl, rfl⟩
    · cases h

theorem alloc_mem {b b' : BufferItem} {size : Nat} {fresh : Nat → BYTE} (h : b.alloc size fresh = .ok b') :
    b'.mem = if b.room < size then newBytes fresh size else b.mem := by
  unfold alloc reset at h
  rw [if_pos (Nat.zero_le _)] at h
  cases h
  split
  · rfl
  · rfl

/-- Nothing is held, and `Put` returns the beginning of the allocation. -/
structure Cleared (b : BufferItem) : Prop where
  head : b.head = true
  data : b.data = 0
  tail : b.tail = 0
  dataLen : b.dataLen = 0

/-- **`Alloc` clears an item**, whatever it was used for. -/
theorem alloc_cleared {b : BufferItem} {size : Nat} (hs : 0 < size) (hb : b.room ≠ 0 → b.head = true)
    (fresh : Nat → BYTE) :
    ∃ b', b.alloc size fresh = .ok b' ∧ b'.Cleared ∧ b'.room = max b.room size ∧ size ≤ b'.room := by
  obtain ⟨b', ha, hg, -, -, hr⟩ := alloc_spec hs hb fresh
  obtain ⟨hd, ht, hl, hroom⟩ := alloc_some ha
  exact ⟨b', ha, ⟨hg.head, hd, ht, hl⟩, hr, hroom⟩

section
variable {b : BufferItem} {len : Nat}

theorem Cleared.put (h : b.Cleared) (hl : len ≤ b.room) :
    b.put len = .ok ({ b with tail := len, dataLen := len }, 0) := by
  have hput := put_of_room h.head (show b.tail + len ≤ b.room by rw [h.tail, Nat.zero_add]; exact hl)
  rwa [h.tail, h.dataLen, Nat.zero_add] at hput

theorem Cleared.put_overrun (h : b.Cleared) (hl : b.room < len) : b.put len = .error .putEnd := by
  have hover : ¬ len ≤ b.mem.length := Nat.not_le.2 hl
  rw [BufferItem.put, if_neg (by simp [h.head]), h.tail, Nat.zero_add, if_neg hover]

theorem Cleared.write (h : b.Cleared) (at_ : Nat) (bs : List BYTE) : (b.write at_ bs).Cleared :=
  ⟨h.head, h.data, h.tail, h.dataLen⟩

theorem mem_write_zero (b : BufferItem) (bs : List BYTE) : (b.write 0 bs).mem = bs ++ b.mem.drop bs.length := by
  have h := drop_write_self (b := b) (Nat.zero_le _) bs
  rwa [List.drop_zero, Nat.zero_add] at h

theorem mem_write_nil (b : BufferItem) (at_ : Nat) : (b.write at_ []).mem = b.mem := by
  unfold BufferItem.write
  rw [List.append_nil, List.length_nil, Nat.add_zero, List.take_append_drop]

end

theorem pull_keeps {b b' : BufferItem} {len : Nat} (h : b.pull len = .ok b') : b'.head = b.head ∧ b'.mem = b.mem := by
  unfold pull at h
  split at h
  · cases h
  · cases h
    exact ⟨rfl, rfl⟩

/-- **`Push` and a store prepend**, when there is headroom. -/
theorem push_write_spec {b : BufferItem} (h : b.Good) (bs : List BYTE) (hl : bs.length ≤ b.headSize) :
    ∃ b' p, b.push bs.length = .ok (b', p) ∧ (b'.write p bs).Good ∧ (b'.write p bs).content = bs ++ b.content ∧
      (b'.write p bs).data = b.data - bs.length ∧ (b'.write p bs).room = b.room := by
  have ht := h.tail
  have hb := h.bound
  have hl' : bs.length ≤ b.data := hl
  refine ⟨{ b with data := b.data - bs.length, dataLen := b.dataLen + bs.length }, b.data - bs.length, ?_,
    ⟨h.head, ?_, ?_⟩, ?_, rfl, ?_⟩
  · unfold push
    rw [if_neg (by simp [h.head]), if_pos hl']
  · show b.tail = b.data - bs.length + (b.dataLen + bs.length)
    omega
  · show b.tail ≤ (b.mem.take (b.data - bs.length) ++ bs ++ b.mem.drop (b.data - bs.length + bs.length)).length
    simp only [List.length_append, List.length_take, List.length_drop]
    omega
  · show ((b.mem.take (b.data - bs.length) ++ bs ++ b.mem.drop (b.data - bs.length + bs.length)).drop
      (b.data - bs.length)).take (b.dataLen + bs.length) = bs ++ (b.mem.drop b.data).take b.dataLen
    have h1 : (b.mem.take (b.data - bs.length)).length = b.data - bs.length := by rw [List.length_take]; omega
    rw [List.append_assoc, List.drop_left' h1, Nat.sub_add_cancel hl', Nat.add_comm, List.take_length_add_append]
  · show (b.mem.take (b.data - bs.length) ++ bs ++ b.mem.drop (b.data - bs.length + bs.length)).length = b.mem.length
    simp only [List.length_append, List.length_take, List.length_drop]
    omega

end BufferItem
end DevMgr
