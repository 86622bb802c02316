import DevMgr.Objects
import DevMgr.RingBuffer
/-!
# RingQueue — the calls of a ring buffer against those of a bounded queue

A caller of `PushAtBack` has seen that the buffer is not full, one of `PopAtFront` that it is not empty, and no item is
NULL.  Under that promise a buffer of capacity `nSize` answers every list of calls as a queue of at most `nSize` items.
`_nSize` is an `int`: where it has no `nSize + 1` there is no such buffer.
-/
namespace DevMgr.RingBuffer

open Objects

inductive RingCall (α : Type) where
  | reset
  | isEmpty
  | isFull
  | pushAtBack (pItem : α)
  | popAtFront
  | pushAtBackSafe (pItem : α)
  | popAtFrontSafe
  deriving DecidableEq, Repr

inductive RingReturn (α : Type) where
  | void
  | bool (ret : Bool)
  | item (pItem : Option α)
  deriving DecidableEq, Repr

variable {α : Type}

def call (ndebug : Bool) (b : RingBuffer α) : RingCall α → Except RingAssertion (RingBuffer α × RingReturn α)
  | .reset => .ok (b.reset ndebug, .void)
  | .isEmpty => .ok (b, .bool b.isEmpty)
  | .isFull => .ok (b, .bool b.isFull)
  | .pushAtBack pItem => (b.pushAtBack ndebug (some pItem)).map fun b => (b, .void)
  | .popAtFront => (b.popAtFront ndebug).map fun r => (r.1, .item r.2)
  | .pushAtBackSafe pItem => (b.pushAtBackSafe ndebug (some pItem)).map fun r => (r.1, .bool r.2)
  | .popAtFrontSafe => (b.popAtFrontSafe ndebug).map fun r => (r.1, .item r.2)

/-- What a caller looks at before a call. -/
def mayCall (b : RingBuffer α) : RingCall α → Bool
  | .pushAtBack _ => !b.isFull
  | .popAtFront => !b.isEmpty
  | _ => true

def object (ndebug : Bool) : Object (RingBuffer α) (RingCall α) (RingReturn α) RingAssertion where
  pre b c := b.mayCall c = true
  call := call ndebug

instance (ndebug : Bool) (b : RingBuffer α) (c : RingCall α) : Decidable ((object ndebug).pre b c) :=
  inferInstanceAs (Decidable (_ = true))

/-- A queue of at most `nSize` items. -/
def boundedQueue (nSize : Nat) : Model (List α) (RingCall α) (RingReturn α)
  | _, .reset => ([], .void)
  | xs, .isEmpty => (xs, .bool (xs.length = 0))
  | xs, .isFull => (xs, .bool (xs.length = nSize))
  | xs, .pushAtBack pItem => (xs ++ [pItem], .void)
  | xs, .popAtFront => (xs.tail, .item xs.head?)
  | xs, .pushAtBackSafe pItem => if xs.length = nSize then (xs, .bool false) else (xs ++ [pItem], .bool true)
  | xs, .popAtFrontSafe => (xs.tail, .item xs.head?)

/-- The items that went in and the items that came out, since the last `Reset`. -/
structure Account (α : Type) where
  pushed : List α
  popped : List α

def Account.note (a : Account α) : RingCall α × RingReturn α → Account α
  | (.reset, _) => ⟨[], []⟩
  | (.pushAtBack pItem, _) => { a with pushed := a.pushed ++ [pItem] }
  | (.pushAtBackSafe pItem, .bool true) => { a with pushed := a.pushed ++ [pItem] }
  | (.popAtFront, .item (some pItem)) => { a with popped := a.popped ++ [pItem] }
  | (.popAtFrontSafe, .item (some pItem)) => { a with popped := a.popped ++ [pItem] }
  | _ => a

def account (calls : List (RingCall α)) (rets : List (RingReturn α)) : Account α :=
  (calls.zip rets).foldl Account.note ⟨[], []⟩

/-- A buffer that holds a queue of at most `nSize` items and knows how many: its tests tell the length 0 and the length
`nSize`, and the `Safe` calls refuse, without a change, exactly there. -/
structure IsQueue (ndebug : Bool) (nSize : Nat) (b : RingBuffer α) (xs : List α) : Prop where
  holds : b.Holds ndebug xs
  length : xs.length ≤ nSize
  isEmpty : b.isEmpty = true ↔ xs.length = 0
  isFull : b.isFull = true ↔ xs.length = nSize
  pushSafe : ∀ pItem b', b.pushAtBackSafe ndebug (some pItem) = .ok (b', false) ↔ xs.length = nSize ∧ b' = b
  popSafe : ∀ b', b.popAtFrontSafe ndebug = .ok (b', none) ↔ xs.length = 0 ∧ b' = b

/-! ## A call -/

section
variable {ndebug : Bool} {nSize : Nat} {b : RingBuffer α} {xs : List α}

theorem Holds.reset (h : b.Holds ndebug xs) : (b.reset ndebug).Holds ndebug [] where
  room := Nat.lt_of_le_of_lt (Nat.zero_le _) h.room
  pop := Nat.lt_of_le_of_lt (Nat.zero_le _) h.room
  push := (Nat.zero_mod _).symm
  item := by simp
  free := by
    rintro rfl i - -
    rfl

theorem Holds.isEmpty_iff (h : b.Holds ndebug xs) : b.isEmpty = decide (xs.length = 0) := by
  rw [h.isEmpty]
  cases xs <;> simp

theorem Holds.isFull_iff (h : b.Holds ndebug xs) (hn : b.nSize = nSize + 1) :
    b.isFull = decide (xs.length = nSize) := by
  rw [h.isFull, hn]
  simp

/-- A safe push tests, and pushes below the capacity. -/
theorem Holds.pushAtBackSafe (h : b.Holds ndebug xs) (hn : b.nSize = nSize + 1) (pItem : α) :
    if xs.length = nSize then b.pushAtBackSafe ndebug (some pItem) = .ok (b, false)
    else ∃ b', b.pushAtBackSafe ndebug (some pItem) = .ok (b', true) ∧ b'.Holds ndebug (xs ++ [pItem]) ∧
      b'.nSize = b.nSize := by
  unfold RingBuffer.pushAtBackSafe
  rw [h.isFull_iff hn]
  split
  · rename_i hl
    rw [if_pos (decide_eq_true hl)]
  · rename_i hl
    have hroom := h.room
    obtain ⟨b', hb', hh, hs⟩ := h.pushAtBack (by omega) pItem
    rw [if_neg (by simpa using hl), hb']
    exact ⟨b', rfl, hh, hs⟩

/-- A safe pop tests, and pops an item that is there. -/
theorem Holds.popAtFrontSafe (h : b.Holds ndebug xs) :
    ∃ b', b.popAtFrontSafe ndebug = .ok (b', xs.head?) ∧ b'.Holds ndebug xs.tail ∧ b'.nSize = b.nSize ∧
      (xs = [] → b' = b) := by
  unfold RingBuffer.popAtFrontSafe
  rw [h.isEmpty]
  cases xs with
  | nil => exact ⟨b, rfl, h, rfl, fun _ => rfl⟩
  | cons x xs =>
    obtain ⟨b', hb', hh, hs⟩ := h.popAtFront
    exact ⟨b', hb', hh, hs, fun hn => by cases hn⟩

/-- **Each call on a buffer is the call on the queue that it holds.** -/
theorem object_refines (ndebug : Bool) (nSize : Nat) : Refines (object ndebug) (boundedQueue (α := α) nSize)
    (fun b xs => b.Holds ndebug xs ∧ b.nSize = nSize + 1) fun _ _ _ => False := by
  rintro b xs c ⟨h, hn⟩ hpre
  right
  cases c with
  | reset => exact ⟨_, rfl, h.reset, hn⟩
  | isEmpty => exact ⟨b, congrArg (fun r => Except.ok (b, RingReturn.bool r)) h.isEmpty_iff, h, hn⟩
  | isFull => exact ⟨b, congrArg (fun r => Except.ok (b, RingReturn.bool r)) (h.isFull_iff hn), h, hn⟩
  | pushAtBack pItem =>
    have hfull : (!b.isFull) = true := hpre
    rw [h.isFull_iff hn] at hfull
    have hlt : xs.length ≠ nSize := by simpa using hfull
    have hroom := h.room
    obtain ⟨b', hb', hh, hs⟩ := h.pushAtBack (by omega) pItem
    exact ⟨b', congrArg (Except.map _) hb', hh, hs.trans hn⟩
  | popAtFront =>
    have hempty : (!b.isEmpty) = true := hpre
    rw [h.isEmpty] at hempty
    cases xs with
    | nil => cases hempty
    | cons x xs =>
      obtain ⟨b', hb', hh, hs⟩ := h.popAtFront
      exact ⟨b', congrArg (Except.map _) hb', hh, hs.trans hn⟩
  | pushAtBackSafe pItem =>
    have hsafe := h.pushAtBackSafe hn pItem
    by_cases hl : xs.length = nSize
    · rw [if_pos hl] at hsafe
      refine ⟨b, ?_, ?_⟩
      · rw [boundedQueue, if_pos hl]
        exact congrArg (Except.map _) hsafe
      · rw [boundedQueue, if_pos hl]
        exact ⟨h, hn⟩
    · rw [if_neg hl] at hsafe
      obtain ⟨b', hb', hh, hs⟩ := hsafe
      refine ⟨b', ?_, ?_⟩
      · rw [boundedQueue, if_neg hl]
        exact congrArg (Except.map _) hb'
      · rw [boundedQueue, if_neg hl]
        exact ⟨hh, hs.trans hn⟩
  | popAtFrontSafe =>
    obtain ⟨b', hb', hh, hs, -⟩ := h.popAtFrontSafe
    exact ⟨b', congrArg (Except.map _) hb', hh, hs.trans hn⟩

theorem Holds.isQueue (h : b.Holds ndebug xs) (hn : b.nSize = nSize + 1) : IsQueue ndebug nSize b xs where
  holds := h
  length := by
    have := h.room
    omega
  isEmpty := by rw [h.isEmpty_iff, decide_eq_true_iff]
  isFull := by rw [h.isFull_iff hn, decide_eq_true_iff]
  pushSafe := by
    intro pItem b'
    have hsafe := h.pushAtBackSafe hn pItem
    by_cases hl : xs.length = nSize
    · rw [if_pos hl] at hsafe
      rw [hsafe, and_iff_right hl, Except.ok.injEq, Prod.mk.injEq, and_iff_left rfl, eq_comm]
    · rw [if_neg hl] at hsafe
      obtain ⟨b₁, hb₁, -⟩ := hsafe
      rw [hb₁]
      exact iff_of_false (fun he => by cases he) fun he => hl he.1
  popSafe := by
    intro b'
    obtain ⟨b₁, hb₁, -, -, hsame⟩ := h.popAtFrontSafe
    rw [hb₁]
    cases xs with
    | nil =>
      rw [hsame rfl, List.head?_nil, Except.ok.injEq, Prod.mk.injEq, and_iff_left rfl, eq_comm]
      exact (and_iff_right rfl).symm
    | cons x xs => exact iff_of_false (fun he => by cases he) fun he => by cases he.1

end

/-! ## Runs -/

/-- What went in is what came out and what is there, in this order. -/
theorem Account.note_queue {a : Account α} {xs : List α} (h : a.pushed = a.popped ++ xs) (nSize : Nat)
    (c : RingCall α) : (a.note (c, (boundedQueue nSize xs c).2)).pushed =
      (a.note (c, (boundedQueue nSize xs c).2)).popped ++ (boundedQueue nSize xs c).1 := by
  cases c with
  | reset => rfl
  | isEmpty => exact h
  | isFull => exact h
  | pushAtBack pItem =>
    show a.pushed ++ [pItem] = a.popped ++ (xs ++ [pItem])
    rw [h, List.append_assoc]
  | popAtFront =>
    cases xs with
    | nil => exact h
    | cons x xs =>
      show a.pushed = a.popped ++ [x] ++ xs
      rw [h, List.append_assoc, List.singleton_append]
  | pushAtBackSafe pItem =>
    rw [boundedQueue]
    split
    · exact h
    · show a.pushed ++ [pItem] = a.popped ++ (xs ++ [pItem])
      rw [h, List.append_assoc]
  | popAtFrontSafe =>
    cases xs with
    | nil => exact h
    | cons x xs =>
      show a.pushed = a.popped ++ [x] ++ xs
      rw [h, List.append_assoc, List.singleton_append]

theorem Account.run_queue (nSize : Nat) : ∀ (calls : List (RingCall α)) {a : Account α} {xs : List α},
    a.pushed = a.popped ++ xs →
      ((calls.zip ((boundedQueue nSize).run xs calls).2).foldl Account.note a).pushed =
        ((calls.zip ((boundedQueue nSize).run xs calls).2).foldl Account.note a).popped ++
          ((boundedQueue nSize).run xs calls).1
  | [], _, _, h => h
  | c :: calls, _, _, h => run_queue nSize calls (note_queue h nSize c)

/-- **A ring buffer is a bounded queue**: whatever is called, while `PushAtBack` is called on no full buffer and
`PopAtFront` on no empty one, no assertion fails, every call returns what it returns on the queue, and what was popped
is what was pushed, in its order, up to what the buffer holds. -/
theorem run_isQueue (ndebug : Bool) (nSize : Nat) (fresh : Nat → Option α) {calls : List (RingCall α)}
    (h : (object ndebug).Allowed (new ndebug nSize fresh) calls) :
    ∃ b xs rets, (object ndebug).run (new ndebug nSize fresh) calls = .ok (b, rets) ∧
      (boundedQueue nSize).run [] calls = (xs, rets) ∧ IsQueue ndebug nSize b xs ∧
      (account calls rets).pushed = (account calls rets).popped ++ xs := by
  obtain ⟨b, hb, hh, hn⟩ := (object_refines ndebug nSize).run_ok ⟨holds_new ndebug nSize fresh, rfl⟩ h
  exact ⟨b, _, _, hb, rfl, hh.isQueue hn, Account.run_queue nSize calls rfl⟩

/-- Calls that take a buffer for one item around its two slots. -/
def aroundOnce : List (RingCall Nat) :=
  [.pushAtBack 1, .popAtFront, .pushAtBackSafe 2, .pushAtBackSafe 3, .popAtFrontSafe, .popAtFrontSafe]

theorem run_isQueue_aroundOnce : ∃ b xs rets,
    (object false).run (new false 1 fun _ => none) aroundOnce = .ok (b, rets) ∧
      (boundedQueue 1).run [] aroundOnce = (xs, rets) ∧ IsQueue false 1 b xs ∧
      (account aroundOnce rets).pushed = (account aroundOnce rets).popped ++ xs :=
  run_isQueue false 1 (fun _ => none) (by decide)

end DevMgr.RingBuffer
