import DevMgr.BufferItem
import DevMgr.Memory
import DevMgr.Objects
/-!
# BufferPointers — the four pointers of a `BufferItem`

`BufferItem.cpp` on addresses: `_head`, `_data`, `_tail` and `_end` (0 is NULL), the `UINT` kept beside them, and the
memory that they point into.  A call comes with what its caller stores at the place that `Put` or `Push` returns, and
with the block that `new` gives, which is apart from the item's own.  `ndebug` is whether `NDEBUG` is defined; `overrun`
is a `memcpy` outside of the block.

`Space` is what a buffer is for, bytes with room around them; under `Holds` each call is one on that, and
`lawful_iff_fits` says of which runs this is true.
-/
namespace DevMgr

inductive Fault where
  | assertion (e : Assertion)
  | overrun
  deriving DecidableEq, Repr

/-- What `new` returned: a place, and what its bytes are. -/
structure Block where
  place : Nat
  fresh : Nat → BYTE

structure BufferPointers where
  mem : Nat → BYTE
  head : Nat
  data : Nat
  tail : Nat
  end_ : Nat
  dataLen : UINT

namespace BufferPointers

open Memory Objects
open BufferItem (newBytes)

def new (mem : Nat → BYTE) : BufferPointers := { mem, head := 0, data := 0, tail := 0, end_ := 0, dataLen := 0 }

def room (x : BufferPointers) : UINT := UInt32.ofNat (x.end_ - x.head)
def dataSize (x : BufferPointers) : UINT := x.dataLen
def headSize (x : BufferPointers) : UINT := UInt32.ofNat (x.data - x.head)
def tailSize (x : BufferPointers) : UINT := UInt32.ofNat (x.end_ - x.tail)

/-- The bytes between `_data` and `_tail`. -/
def content (x : BufferPointers) : List BYTE := load x.mem x.data (x.tail - x.data)

def reset (ndebug : Bool) (x : BufferPointers) (len : UINT) : Except Fault BufferPointers :=
  if !ndebug && decide (x.end_ < x.head + len.toNat) then .error (.assertion .resetRoom)
  else .ok { x with data := x.head + len.toNat, tail := x.head + len.toNat, dataLen := 0 }

def alloc (ndebug : Bool) (x : BufferPointers) (size : UINT) (new : Block) : Except Fault BufferPointers :=
  (if x.room < size then
    { x with
      mem := store x.mem new.place (newBytes new.fresh size.toNat)
      head := new.place
      end_ := new.place + size.toNat }
  else x).reset ndebug 0

/-- `room() + len` is a `UINT` too; the copy is of `room()` bytes. -/
def expand (x : BufferPointers) (len : UINT) (new : Block) : Except Fault BufferPointers :=
  let size := x.room + len
  let mem := store x.mem new.place (newBytes new.fresh size.toNat)
  if size < x.room then .error .overrun
  else
    let mem := store mem new.place (load mem x.head x.room.toNat)
    let data := new.place + x.headSize.toNat
    let tail := data + x.dataLen.toNat
    let end_ := new.place + size.toNat
    .ok { x with mem, head := new.place, data, tail, end_ }

def reserve (ndebug : Bool) (x : BufferPointers) (len : UINT) : Except Fault BufferPointers :=
  if !ndebug && x.dataLen ≠ 0 then .error (.assertion .reserveUsed)
  else .ok { x with data := x.data + len.toNat, tail := x.data + len.toNat }

def put (ndebug : Bool) (x : BufferPointers) (len : UINT) : Except Fault (BufferPointers × Nat) :=
  if !ndebug && x.head = 0 then .error (.assertion .headNull)
  else
    let p := x.tail
    let x := { x with tail := x.tail + len.toNat, dataLen := x.dataLen + len }
    if !ndebug && decide (x.end_ < x.tail) then .error (.assertion .putEnd) else .ok (x, p)

def push (ndebug : Bool) (x : BufferPointers) (len : UINT) : Except Fault (BufferPointers × Nat) :=
  if !ndebug && x.head = 0 then .error (.assertion .headNull)
  else
    let x := { x with data := x.data - len.toNat, dataLen := x.dataLen + len }
    if !ndebug && decide (x.data < x.head) then .error (.assertion .pushHead) else .ok (x, x.data)

def pull (ndebug : Bool) (x : BufferPointers) (len : UINT) : Except Fault (BufferPointers × Nat) :=
  if !ndebug && x.head = 0 then .error (.assertion .headNull)
  else
    let x := { x with data := x.data + len.toNat, dataLen := x.dataLen - len }
    .ok (x, x.data)

/-- `memcpy(p, bs, n)`. -/
def copyTo (x : BufferPointers) (p : Nat) (bs : List BYTE) : Except Fault BufferPointers :=
  if x.head ≤ p ∧ p + bs.length ≤ x.end_ then .ok { x with mem := store x.mem p bs } else .error .overrun

inductive BufferCall where
  | alloc (size : UINT) (new : Block)
  | expand (len : UINT) (new : Block)
  | reset (len : UINT)
  | reserve (len : UINT)
  | put (bs : List BYTE)
  | push (bs : List BYTE)
  | pull (len : UINT)

def call (ndebug : Bool) (x : BufferPointers) : BufferCall → Except Fault BufferPointers
  | .alloc size new => x.alloc ndebug size new
  | .expand len new => x.expand len new
  | .reset len => x.reset ndebug len
  | .reserve len => x.reserve ndebug len
  | .put bs => (x.put ndebug (UInt32.ofNat bs.length)).bind fun r => r.1.copyTo r.2 bs
  | .push bs => (x.push ndebug (UInt32.ofNat bs.length)).bind fun r => r.1.copyTo r.2 bs
  | .pull len => (x.pull ndebug len).map Prod.fst

/-- The available space, as a caller sees it, and what is known of `new`: its block is none in use. -/
def MayCall (x : BufferPointers) : BufferCall → Prop
  | .alloc _ new => new.place ≠ 0
  | .expand len new =>
    new.place ≠ 0 ∧ (new.place + (x.room + len).toNat ≤ x.head ∨ x.end_ ≤ new.place)
  | .reset len => len ≤ x.room
  | .reserve len => x.dataSize = 0 ∧ x.headSize.toNat + len.toNat ≤ x.room.toNat
  | .put bs => bs.length ≤ x.tailSize.toNat
  | .push bs => bs.length ≤ x.headSize.toNat
  | .pull len => len ≤ x.dataSize

instance (x : BufferPointers) : (c : BufferCall) → Decidable (x.MayCall c)
  | .alloc .. => inferInstanceAs (Decidable (_ ≠ _))
  | .expand .. => inferInstanceAs (Decidable (_ ∧ (_ ∨ _)))
  | .reset _ => inferInstanceAs (Decidable (_ ≤ _))
  | .reserve _ => inferInstanceAs (Decidable (_ ∧ _))
  | .put _ => inferInstanceAs (Decidable (_ ≤ _))
  | .push _ => inferInstanceAs (Decidable (_ ≤ _))
  | .pull _ => inferInstanceAs (Decidable (_ ≤ _))

def object (ndebug : Bool) : Object BufferPointers BufferCall Unit Fault where
  pre := MayCall
  call x c := (x.call ndebug c).map fun x => (x, ())

/-- Bytes, and the room in front of them and behind them. -/
structure Space where
  allocated : Bool
  headRoom : Nat
  content : List BYTE
  tailRoom : Nat
  deriving DecidableEq, Repr

namespace Space

def room (s : Space) : Nat := s.headRoom + s.content.length + s.tailRoom

@[simp] theorem room_eq (s : Space) : s.room = s.headRoom + s.content.length + s.tailRoom := rfl

def new : Space := { allocated := false, headRoom := 0, content := [], tailRoom := 0 }

/-- What each call is for. -/
def model : Model Space BufferCall Unit
  | s, .alloc size _ =>
    ({ allocated := s.allocated || decide (s.room < size.toNat), headRoom := 0, content := [],
       tailRoom := max s.room size.toNat }, ())
  | s, .expand len _ => ({ s with allocated := true, tailRoom := s.tailRoom + len.toNat }, ())
  | s, .reset len => ({ s with headRoom := len.toNat, content := [], tailRoom := s.room - len.toNat }, ())
  | s, .reserve len => ({ s with headRoom := s.headRoom + len.toNat, tailRoom := s.tailRoom - len.toNat }, ())
  | s, .put bs => ({ s with content := s.content ++ bs, tailRoom := s.tailRoom - bs.length }, ())
  | s, .push bs => ({ s with headRoom := s.headRoom - bs.length, content := bs ++ s.content }, ())
  | s, .pull len => ({ s with headRoom := s.headRoom + len.toNat, content := s.content.drop len.toNat }, ())

/-- The available space of a call. -/
def Within (s : Space) : BufferCall → Prop
  | .alloc .. | .expand .. => True
  | .reset len => len.toNat ≤ s.room
  | .reserve len => s.content = [] ∧ len.toNat ≤ s.tailRoom
  | .put bs => bs.length ≤ s.tailRoom
  | .push bs => bs.length ≤ s.headRoom
  | .pull len => len.toNat ≤ s.content.length

/-- **Only `Alloc` and `Expand` change the room.** -/
theorem room_model {s : Space} {c : BufferCall} (h : s.Within c) : (model s c).1.room =
    match c with
    | .alloc size _ => max s.room size.toNat
    | .expand len _ => s.room + len.toNat
    | _ => s.room := by
  cases c with
  | alloc size b => simp [model]
  | expand len b => simp [model]; omega
  | reserve len => simp [Within] at h; simp [model]; omega
  | reset len => simp [Within] at h; simp [model]; omega
  | put bs => simp [Within] at h; simp [model]; omega
  | push bs => simp [Within] at h; simp [model]; omega
  | pull len => simp [Within] at h; simp [model]; omega

/-- A debug build stops at `assert(_head)` in a call for no bytes on an item that has no block. -/
def Stops (ndebug : Bool) (s : Space) (c : BufferCall) (e : Fault) : Prop :=
  ndebug = false ∧ s.allocated = false ∧ (c = .put [] ∨ c = .push [] ∨ c = .pull 0) ∧ e = .assertion .headNull

end Space

/-- An item with these bytes and these rooms. -/
structure Holds (x : BufferPointers) (s : Space) : Prop where
  data : x.data = x.head + s.headRoom
  tail : x.tail = x.data + s.content.length
  end_ : x.end_ = x.tail + s.tailRoom
  dataLen : x.dataLen.toNat = s.content.length
  content : load x.mem x.data s.content.length = s.content
  size : s.room < 2 ^ 32
  allocated : x.head ≠ 0 ↔ s.allocated = true
  null : x.head = 0 → s.room = 0

/-- `_head <= _data <= _tail <= _end`, `_tail = _data + _data_len`, and the sizes add up. -/
structure Good (x : BufferPointers) : Prop where
  head : x.head ≤ x.data
  data : x.data ≤ x.tail
  tail : x.tail ≤ x.end_
  dataLen : x.tail = x.data + x.dataLen.toNat
  sizes : x.headSize.toNat + x.dataSize.toNat + x.tailSize.toNat = x.room.toNat

/-- What a caller can see of these bytes and rooms. -/
structure Shows (x : BufferPointers) (s : Space) : Prop where
  good : x.Good
  headSize : x.headSize.toNat = s.headRoom
  content : x.content = s.content
  tailSize : x.tailSize.toNat = s.tailRoom

/-- A list of calls that does to the bytes and the rooms what it is for, or that a debug build stops on an item that has
no block. -/
def Lawful (ndebug : Bool) (mem : Nat → BYTE) (calls : List BufferCall) : Prop :=
  (∃ e before c after, calls = before ++ c :: after ∧ Space.Stops ndebug (Space.model.run .new before).1 c e ∧
    (object ndebug).run (new mem) calls = .error e) ∨
  ∃ x rets, (object ndebug).run (new mem) calls = .ok (x, rets) ∧ x.Shows (Space.model.run .new calls).1

/-- The room that `Expand` asks for is a `UINT`. -/
def Fits (x : BufferPointers) : BufferCall → Prop
  | .expand len _ => x.room.toNat + len.toNat < 2 ^ 32
  | _ => True

instance (x : BufferPointers) : (c : BufferCall) → Decidable (x.Fits c)
  | .expand .. => inferInstanceAs (Decidable (_ < _))
  | .alloc .. | .reset _ | .reserve _ | .put _ | .push _ | .pull _ => isTrue trivial

theorem toNat_ofNat {n : Nat} (h : n < 2 ^ 32) : (UInt32.ofNat n).toNat = n := by
  rw [UInt32.toNat_ofNat', Nat.mod_eq_of_lt h]

section
variable {x : BufferPointers} {s : Space} {len : UINT}

theorem holds_new (mem : Nat → BYTE) : (new mem).Holds .new where
  data := rfl
  tail := rfl
  end_ := rfl
  dataLen := rfl
  content := rfl
  size := by decide
  allocated := by simp [new, Space.new]
  null := fun _ => rfl

/-! ## The sizes -/

theorem Holds.end_eq (h : x.Holds s) : x.end_ = x.head + s.room := by
  rw [h.end_, h.tail, h.data, Space.room]
  omega

theorem Holds.room_eq (h : x.Holds s) : x.room.toNat = s.room := by
  rw [room, h.end_eq, Nat.add_sub_cancel_left, toNat_ofNat h.size]

theorem Holds.room_lt_iff (h : x.Holds s) {size : UINT} : x.room < size ↔ s.room < size.toNat := by
  rw [UInt32.lt_iff_toNat_lt, h.room_eq]

/-- A size that fits is the sum. -/
theorem Holds.room_add (h : x.Holds s) (hfits : x.room.toNat + len.toNat < 2 ^ 32) :
    (x.room + len).toNat = s.room + len.toNat := by
  rw [UInt32.toNat_add, Nat.mod_eq_of_lt hfits, h.room_eq]

theorem Holds.headSize_eq (h : x.Holds s) : x.headSize.toNat = s.headRoom := by
  have hs := h.size
  rw [Space.room] at hs
  rw [headSize, h.data, Nat.add_sub_cancel_left, toNat_ofNat (by omega)]

theorem Holds.tailSize_eq (h : x.Holds s) : x.tailSize.toNat = s.tailRoom := by
  have hs := h.size
  rw [Space.room] at hs
  rw [tailSize, h.end_, Nat.add_sub_cancel_left, toNat_ofNat (by omega)]

theorem Holds.good (h : x.Holds s) : x.Good where
  head := by
    rw [h.data]
    omega
  data := by
    rw [h.tail]
    omega
  tail := by
    rw [h.end_]
    omega
  dataLen := by rw [h.tail, h.dataLen]
  sizes := by rw [h.headSize_eq, h.tailSize_eq, h.room_eq, dataSize, h.dataLen, Space.room]

theorem Holds.shows (h : x.Holds s) : x.Shows s where
  good := h.good
  headSize := h.headSize_eq
  content := by rw [BufferPointers.content, h.tail, Nat.add_sub_cancel_left, h.content]
  tailSize := h.tailSize_eq

/-- The space that a caller sees is the space there is. -/
theorem Holds.within (h : x.Holds s) {c : BufferCall} (hmay : x.MayCall c) : s.Within c := by
  cases c with
  | alloc size b => trivial
  | expand len b => trivial
  | reset len =>
    rw [Space.Within, ← h.room_eq]
    exact UInt32.le_iff_toNat_le.1 hmay
  | reserve len =>
    obtain ⟨h0, hl⟩ := hmay
    have hnil : s.content.length = 0 := h.dataLen ▸ congrArg UInt32.toNat h0
    rw [h.headSize_eq, h.room_eq, Space.room] at hl
    exact ⟨List.eq_nil_of_length_eq_zero hnil, by omega⟩
  | put bs =>
    rw [Space.Within, ← h.tailSize_eq]
    exact hmay
  | push bs =>
    rw [Space.Within, ← h.headSize_eq]
    exact hmay
  | pull len =>
    rw [Space.Within, ← h.dataLen]
    exact UInt32.le_iff_toNat_le.1 hmay

/-! ## The calls -/

theorem Holds.reset (h : x.Holds s) (ndebug : Bool) (hl : len.toNat ≤ s.room) :
    ∃ x', x.reset ndebug len = .ok x' ∧ x'.Holds (Space.model s (.reset len)).1 := by
  have hend := h.end_eq
  have hroom := Space.room_model (c := .reset len) hl
  refine ⟨_, if_neg (by simp; omega), rfl, rfl, ?end_, rfl, rfl, hroom.trans_lt h.size, h.allocated,
    fun h0 => hroom.trans (h.null h0)⟩
  case end_ => simp only [Space.model]; omega

/-- A new block, or the old one, at its beginning. -/
theorem Holds.alloc (h : x.Holds s) (ndebug : Bool) (size : UINT) {b : Block} (hp : b.place ≠ 0) :
    ∃ x', x.alloc ndebug size b = .ok x' ∧ x'.Holds (Space.model s (.alloc size b)).1 := by
  have hroom := Space.room_model (s := s) (c := .alloc size b) trivial
  have hsize : (Space.model s (.alloc size b)).1.room < 2 ^ 32 := by
    rw [hroom]
    exact max_lt h.size size.toNat_lt
  have hend := h.end_eq
  have hzero : (0 : UINT).toNat = 0 := rfl
  unfold BufferPointers.alloc BufferPointers.reset
  by_cases hs : s.room < size.toNat
  · rw [if_pos (h.room_lt_iff.2 hs)]
    refine ⟨_, if_neg (by simp), rfl, rfl, ?end_, rfl, rfl, hsize, ?allocated, fun h0 => absurd h0 hp⟩
    case end_ => simp only [Space.model]; omega
    case allocated => simp only [Space.model, hs, decide_true, Bool.or_true]; simp [hp]
  · rw [if_neg (hs ∘ h.room_lt_iff.1)]
    refine ⟨_, if_neg (by simp; omega), rfl, rfl, ?end_, rfl, rfl, hsize, ?allocated, fun h0 => ?null⟩
    case end_ => simp only [Space.model]; omega
    case allocated => simp only [Space.model, hs, decide_false, Bool.or_false]; exact h.allocated
    case null =>
      rw [hroom, ← h.null h0]
      exact Nat.max_eq_left (Nat.le_of_not_lt hs)

theorem Holds.reserve (h : x.Holds s) (ndebug : Bool) (hnil : s.content = []) (hl : len.toNat ≤ s.tailRoom) :
    ∃ x', x.reserve ndebug len = .ok x' ∧ x'.Holds (Space.model s (.reserve len)).1 := by
  have h0 : x.dataLen = 0 := by
    apply UInt32.toNat_inj.1
    rw [h.dataLen, hnil]
    rfl
  have hdata := h.data
  have hend := h.end_eq
  have hroom := Space.room_model (c := .reserve len) ⟨hnil, hl⟩
  simp only [Space.room_eq, hnil, List.length_nil] at hend
  refine ⟨_, if_neg (by simp [h0]), ?data, ?tail, ?end_, h.dataLen, ?content, hroom.trans_lt h.size, h.allocated,
    fun hh => hroom.trans (h.null hh)⟩
  case data => simp only [Space.model]; omega
  case tail => simp [Space.model, hnil]
  case end_ => simp only [Space.model]; omega
  case content => simp [Space.model, hnil]

/-- The block that `Expand` leaves: the copy reads the old one, which the new one is apart from. -/
theorem Holds.load_expand (h : x.Holds s) (b : Block) (hfits : x.room.toNat + len.toNat < 2 ^ 32)
    (hapart : b.place + (x.room + len).toNat ≤ x.head ∨ x.end_ ≤ b.place) :
    load (store (store x.mem b.place (newBytes b.fresh (x.room + len).toNat)) b.place
        (load (store x.mem b.place (newBytes b.fresh (x.room + len).toNat)) x.head x.room.toNat))
      b.place (x.room + len).toNat =
        load x.mem x.head s.room ++ (newBytes b.fresh (x.room + len).toNat).drop s.room := by
  have hend := h.end_eq
  have hlen : (newBytes b.fresh (x.room + len).toNat).length = (x.room + len).toNat := BufferItem.length_newBytes ..
  have hsize := h.room_add hfits
  rw [← h.room_eq] at hend hsize ⊢
  have hgrown := load_grown (m := x.mem) (b := b.place) (a := x.head) (r := x.room.toNat)
    (hlen.symm ▸ (show b.place + (x.room + len).toNat ≤ x.head ∨ x.head + x.room.toNat ≤ b.place by omega))
    (by omega)
  rwa [hlen] at hgrown

theorem Holds.expand (h : x.Holds s) {b : Block} (hp : b.place ≠ 0) (hfits : x.room.toNat + len.toNat < 2 ^ 32)
    (hapart : b.place + (x.room + len).toNat ≤ x.head ∨ x.end_ ≤ b.place) :
    ∃ x', x.expand len b = .ok x' ∧ x'.Holds (Space.model s (.expand len b)).1 := by
  have hroom := h.room_eq
  have hsize := h.room_add hfits
  have hnot : ¬ x.room + len < x.room := by
    rw [UInt32.lt_iff_toNat_lt, hsize, hroom]
    omega
  refine ⟨_, if_neg hnot, ?data, ?tail, ?end_, h.dataLen, ?content, ?size, ?allocated, fun h0 => absurd h0 hp⟩
  case data => simp only [Space.model, h.headSize_eq]
  case tail => simp only [Space.model, h.dataLen]
  case end_ =>
    simp only [Space.model, h.dataLen, h.headSize_eq, hsize, Space.room_eq]
    omega
  case content =>
    have hmem := congrArg (List.take s.room) (h.load_expand b hfits hapart)
    rw [take_load, hsize, Nat.min_eq_left (Nat.le_add_right ..), List.take_left' (length_load ..)] at hmem
    have hin := load_inside hmem (k := s.headRoom) (j := s.content.length) (by simp)
    rw [← h.data, h.content, ← hsize] at hin
    simp only [Space.model, h.headSize_eq]
    exact hin
  case size =>
    rw [Space.room_model (c := .expand len b) trivial]
    exact hroom ▸ hfits
  case allocated => simp [Space.model, hp]

/-! ## The calls that need a block -/

/-- `assert(_head)` fails only where there is no room for a byte. -/
theorem Holds.stops (h : x.Holds s) {ndebug : Bool} (hn : (!ndebug && decide (x.head = 0)) = true) {c : BufferCall}
    (hc : s.room = 0 → c = .put [] ∨ c = .push [] ∨ c = .pull 0) :
    Space.Stops ndebug s c (.assertion .headNull) := by
  rw [Bool.and_eq_true, Bool.not_eq_true', decide_eq_true_iff] at hn
  have hall : s.allocated = false := Bool.eq_false_iff.2 fun ha => h.allocated.2 ha hn.2
  exact ⟨hn.1, hall, hc (h.null hn.2), rfl⟩

/-- The length of bytes that there is room for is a `UINT`. -/
theorem Holds.toNat_length (h : x.Holds s) {bs : List BYTE} (hl : bs.length ≤ s.room) :
    (UInt32.ofNat bs.length).toNat = bs.length :=
  toNat_ofNat (hl.trans_lt h.size)

theorem Holds.put (h : x.Holds s) (ndebug : Bool) {bs : List BYTE} (hl : bs.length ≤ s.tailRoom) :
    (x.call ndebug (.put bs) = .error (.assertion .headNull) ∧
      Space.Stops ndebug s (.put bs) (.assertion .headNull)) ∨
      ∃ x', x.call ndebug (.put bs) = .ok x' ∧ x'.Holds (Space.model s (.put bs)).1 := by
  have hfit : bs.length ≤ s.room := hl.trans (Nat.le_add_left ..)
  have hlen := h.toNat_length hfit
  have hdata := h.data
  have htail := h.tail
  have hend := h.end_
  have hsize := h.size
  have hroom := Space.room_model (c := .put bs) hl
  rw [call, BufferPointers.put]
  split
  · rename_i hn
    refine .inl ⟨rfl, h.stops hn fun h0 => .inl ?_⟩
    have hnil : bs = [] := List.eq_nil_of_length_eq_zero (Nat.le_zero.1 (hfit.trans_eq h0))
    rw [hnil]
  · right
    dsimp only
    rw [if_neg (by simp [hlen]; omega), Except.bind, copyTo, if_pos (by dsimp only; omega)]
    refine ⟨_, rfl, h.data, ?tail, ?end_, ?dataLen, ?content, hroom.trans_lt h.size, h.allocated,
      fun h0 => hroom.trans (h.null h0)⟩
    case tail => simp only [Space.model, hlen, List.length_append]; omega
    case end_ => simp only [Space.model, hlen]; omega
    case dataLen =>
      simp only [Space.model, UInt32.toNat_add, hlen, h.dataLen, List.length_append]
      rw [Space.room] at hsize
      exact Nat.mod_eq_of_lt (by omega)
    case content =>
      simp only [Space.model, List.length_append]
      rw [load_add, ← htail, load_store, load_store_apart (.inl (Nat.le_of_eq htail.symm)), h.content]

theorem Holds.push (h : x.Holds s) (ndebug : Bool) {bs : List BYTE} (hl : bs.length ≤ s.headRoom) :
    (x.call ndebug (.push bs) = .error (.assertion .headNull) ∧
      Space.Stops ndebug s (.push bs) (.assertion .headNull)) ∨
      ∃ x', x.call ndebug (.push bs) = .ok x' ∧ x'.Holds (Space.model s (.push bs)).1 := by
  have hfit : bs.length ≤ s.room := by
    rw [Space.room]
    omega
  have hlen := h.toNat_length hfit
  have hdata := h.data
  have htail := h.tail
  have hend := h.end_
  have hsize := h.size
  have hroom := Space.room_model (c := .push bs) hl
  rw [call, BufferPointers.push]
  split
  · rename_i hn
    refine .inl ⟨rfl, h.stops hn fun h0 => .inr (.inl ?_)⟩
    have hnil : bs = [] := List.eq_nil_of_length_eq_zero (Nat.le_zero.1 (hfit.trans_eq h0))
    rw [hnil]
  · right
    dsimp only
    rw [if_neg (by simp [hlen]; omega), Except.bind, copyTo, if_pos (by dsimp only; omega)]
    refine ⟨_, rfl, ?data, ?tail, h.end_, ?dataLen, ?content, hroom.trans_lt h.size, h.allocated,
      fun h0 => hroom.trans (h.null h0)⟩
    case data => simp only [Space.model, hlen]; omega
    case tail => simp only [Space.model, hlen, List.length_append]; omega
    case dataLen =>
      simp only [Space.model, UInt32.toNat_add, hlen, h.dataLen, List.length_append]
      rw [Space.room] at hsize
      rw [Nat.mod_eq_of_lt (by omega), Nat.add_comm]
    case content =>
      have hplace : x.data - bs.length + bs.length = x.data := by omega
      simp only [Space.model, List.length_append, hlen]
      rw [load_add, load_store, hplace, load_store_apart (.inr (Nat.le_of_eq hplace)), h.content]

theorem Holds.pull (h : x.Holds s) (ndebug : Bool) (hl : len.toNat ≤ s.content.length) :
    (x.call ndebug (.pull len) = .error (.assertion .headNull) ∧
      Space.Stops ndebug s (.pull len) (.assertion .headNull)) ∨
      ∃ x', x.call ndebug (.pull len) = .ok x' ∧ x'.Holds (Space.model s (.pull len)).1 := by
  have hdata := h.data
  have htail := h.tail
  have hroom := Space.room_model (c := .pull len) hl
  rw [call, BufferPointers.pull]
  split
  · rename_i hn
    refine .inl ⟨rfl, h.stops hn fun h0 => .inr (.inr ?_)⟩
    have hzero : len.toNat = (0 : UINT).toNat := by
      rw [Space.room] at h0
      show len.toNat = 0
      omega
    rw [UInt32.toNat_inj.1 hzero]
  · right
    refine ⟨_, rfl, ?data, ?tail, h.end_, ?dataLen, ?content, hroom.trans_lt h.size, h.allocated,
      fun h0 => hroom.trans (h.null h0)⟩
    case data => simp only [Space.model]; omega
    case tail => simp only [Space.model, List.length_drop]; omega
    case dataLen =>
      have hle : len ≤ x.dataLen := by rw [UInt32.le_iff_toNat_le, h.dataLen]; exact hl
      simp only [Space.model, UInt32.toNat_sub_of_le _ _ hle, h.dataLen, List.length_drop]
    case content =>
      simp only [Space.model, List.length_drop]
      rw [← drop_load x.mem x.data hl, h.content]

/-- **An `Expand` whose size wraps copies more than it has allocated.** -/
theorem expand_overrun {b : Block} (h : ¬ x.room.toNat + len.toNat < 2 ^ 32) : x.expand len b = .error .overrun := by
  have hroom := x.room.toNat_lt
  have hlen := len.toNat_lt
  refine if_pos ?_
  rw [UInt32.lt_iff_toNat_lt, UInt32.toNat_add]
  omega

end

instance (ndebug : Bool) (x : BufferPointers) (c : BufferCall) : Decidable ((object ndebug).pre x c) :=
  inferInstanceAs (Decidable (x.MayCall c))

instance (ndebug : Bool) (x : BufferPointers) (c : BufferCall) :
    Decidable (((object ndebug).restrict Fits).pre x c) :=
  inferInstanceAs (Decidable (x.MayCall c ∧ x.Fits c))

/-! ## Runs -/

/-- **Each call that fits does to the pointers what it is for.** -/
theorem object_refines (ndebug : Bool) :
    Refines ((object ndebug).restrict Fits) Space.model Holds (Space.Stops ndebug) := by
  have hok : ∀ {x s c}, (∃ x', call ndebug x c = .ok x' ∧ x'.Holds (Space.model s c).1) →
      ∃ x', ((object ndebug).restrict Fits).call x c = .ok (x', (Space.model s c).2) ∧
        x'.Holds (Space.model s c).1 := by
    rintro x s c ⟨x', hx', hh⟩
    exact ⟨x', congrArg (Except.map _) hx', hh⟩
  have hstop : ∀ {x s c}, (call ndebug x c = .error (.assertion .headNull) ∧
      Space.Stops ndebug s c (.assertion .headNull)) →
      ∃ e, ((object ndebug).restrict Fits).call x c = .error e ∧ Space.Stops ndebug s c e := by
    rintro x s c ⟨hx, hs⟩
    exact ⟨_, congrArg (Except.map _) hx, hs⟩
  rintro x s c h ⟨hmay, hfits⟩
  have hin := h.within hmay
  cases c with
  | alloc size b => exact .inr (hok (h.alloc ndebug size hmay))
  | expand len b => exact .inr (hok (h.expand hmay.1 hfits hmay.2))
  | reset len => exact .inr (hok (h.reset ndebug hin))
  | reserve len => exact .inr (hok (h.reserve ndebug hin.1 hin.2))
  | put bs => exact (h.put ndebug hin).imp hstop hok
  | push bs => exact (h.push ndebug hin).imp hstop hok
  | pull len => exact (h.pull ndebug hin).imp hstop hok

/-- **A buffer keeps its invariant and is a list with room around it** in every run within the available space, exactly
when no `Expand` of the run asks for 2^32 bytes or more: `Put` appends, `Push` prepends, `Pull` drops from the front,
`Expand` keeps the content and the headroom, `Alloc` and `Reset` empty it, and `Alloc` keeps the room there was. -/
theorem lawful_iff_fits (ndebug : Bool) (mem : Nat → BYTE) {calls : List BufferCall}
    (h : (object ndebug).Allowed (new mem) calls) :
    Lawful ndebug mem calls ↔ ((object ndebug).restrict Fits).Allowed (new mem) calls := by
  constructor
  · intro hlaw
    by_contra hno
    have hrun := Object.run_of_not_restrict (e := Fault.overrun) (fun x c _ hfits => ?_) h hno
    · obtain ⟨e, -, -, -, -, ⟨-, -, -, rfl⟩, he⟩ | ⟨x, rets, hx, -⟩ := hlaw
      · rw [hrun] at he
        cases he
      · rw [hrun] at hx
        cases hx
    · cases c with
      | expand len b => exact congrArg (Except.map _) (expand_overrun hfits)
      | _ => exact absurd trivial hfits
  · intro hall
    obtain ⟨e, before, c, after, hc, hstop, he⟩ | ⟨x, hx, hh⟩ := (object_refines ndebug).run (holds_new mem) hall
    · rw [Object.run_restrict] at he
      exact .inl ⟨e, before, c, after, hc, hstop, he⟩
    · rw [Object.run_restrict] at hx
      exact .inr ⟨x, _, hx, hh.shows⟩

/-- Calls that slide the data over its room, in a second block at the end. -/
def slide : List BufferCall :=
  [.alloc 4 ⟨16, fun _ => 0⟩, .reserve 1, .put [1, 2], .pull 1, .push [9, 8], .expand 2 ⟨32, fun _ => 7⟩, .put [3, 4]]

theorem lawful_slide : Lawful false (fun _ => 0) slide :=
  (lawful_iff_fits false (fun _ => 0) (show (object false).Allowed (new fun _ => 0) slide by decide)).2 (by decide)

/-- A block of no bytes for the byte that is there and 2^32 - 1 more. -/
def wrapping : List BufferCall := [.alloc 1 ⟨16, fun _ => 0⟩, .expand 0xffffffff ⟨32, fun _ => 0⟩]

theorem wrapping_not_lawful : (object true).Allowed (new fun _ => 0) wrapping ∧
    ¬ Lawful true (fun _ => 0) wrapping := by
  refine ⟨by decide, ?_⟩
  have hrun : (object true).run (new fun _ => 0) wrapping = .error .overrun := rfl
  rintro (⟨e, -, -, -, -, ⟨hdebug, -⟩, -⟩ | ⟨x, rets, hx, -⟩)
  · cases hdebug
  · rw [hrun] at hx
    cases hx

end BufferPointers
end DevMgr
