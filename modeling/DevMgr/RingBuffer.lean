import Mathlib.Data.Nat.ModEq
import Mathlib.Logic.Function.Basic
/-!
# RingBuffer — the bounded queue of pointers

`RingBuffer.cpp`: `_nSize` slots, one more than the capacity, with the positions of the next push and the next pop; a
slot is a pointer, `none` when NULL.  `ndebug` is whether `NDEBUG` is defined: without it the slots start NULL, a popped
slot is set to NULL, and an operation whose assertion fails is an error; with it the slots start as whatever `new`
returned (`fresh`) and keep what was popped.

`Holds b xs` says that the buffer holds the items `xs`, oldest first; under it each operation is one on that queue.
-/
namespace DevMgr

inductive RingAssertion where
  | full
  | empty
  | nullItem
  | slotUsed
  deriving DecidableEq, Repr

structure RingBuffer (α : Type) where
  nPushPos : Nat
  nPopPos : Nat
  nSize : Nat
  pRingBuf : Nat → Option α

namespace RingBuffer

variable {α : Type}

def new (ndebug : Bool) (nSize : Nat) (fresh : Nat → Option α) : RingBuffer α :=
  { nPushPos := 0, nPopPos := 0, nSize := nSize + 1, pRingBuf := if ndebug then fresh else fun _ => none }

def reset (ndebug : Bool) (b : RingBuffer α) : RingBuffer α :=
  { b with nPushPos := 0, nPopPos := 0, pRingBuf := if ndebug then b.pRingBuf else fun _ => none }

def isEmpty (b : RingBuffer α) : Bool := b.nPushPos == b.nPopPos

def isFull (b : RingBuffer α) : Bool := (b.nPushPos + 1) % b.nSize == b.nPopPos

def pushAtBack (ndebug : Bool) (b : RingBuffer α) (pItem : Option α) : Except RingAssertion (RingBuffer α) :=
  if !ndebug && b.isFull then .error .full
  else if !ndebug && pItem.isNone then .error .nullItem
  else if !ndebug && (b.pRingBuf b.nPushPos).isSome then .error .slotUsed
  else .ok { b with pRingBuf := Function.update b.pRingBuf b.nPushPos pItem, nPushPos := (b.nPushPos + 1) % b.nSize }

def popAtFront (ndebug : Bool) (b : RingBuffer α) : Except RingAssertion (RingBuffer α × Option α) :=
  if !ndebug && b.isEmpty then .error .empty
  else if !ndebug && (b.pRingBuf b.nPopPos).isNone then .error .nullItem
  else .ok ({ b with
    pRingBuf := if ndebug then b.pRingBuf else Function.update b.pRingBuf b.nPopPos none
    nPopPos := (b.nPopPos + 1) % b.nSize }, b.pRingBuf b.nPopPos)

def pushAtBackSafe (ndebug : Bool) (b : RingBuffer α) (pItem : Option α) : Except RingAssertion (RingBuffer α × Bool) :=
  if b.isFull then .ok (b, false)
  else match b.pushAtBack ndebug pItem with
    | .error e => .error e
    | .ok b' => .ok (b', true)

def popAtFrontSafe (ndebug : Bool) (b : RingBuffer α) : Except RingAssertion (RingBuffer α × Option α) :=
  if b.isEmpty then .ok (b, none) else b.popAtFront ndebug

/-- The slot of the item `i` places behind the oldest. -/
def slot (b : RingBuffer α) (i : Nat) : Nat := (b.nPopPos + i) % b.nSize

/-- **The buffer holds the items `xs`**, oldest first, in the slots from `_nPopPos` to `_nPushPos`; in a debug build the
other slots are NULL. -/
structure Holds (ndebug : Bool) (b : RingBuffer α) (xs : List α) : Prop where
  room : xs.length < b.nSize
  pop : b.nPopPos < b.nSize
  push : b.nPushPos = b.slot xs.length
  item : ∀ i (h : i < xs.length), b.pRingBuf (b.slot i) = some xs[i]
  free : ndebug = false → ∀ i, xs.length ≤ i → i < b.nSize → b.pRingBuf (b.slot i) = none

/-- Places less than a round apart have different slots. -/
theorem mod_ne {n p i j : Nat} (hij : i < j) (hjn : j < n + i) : (p + i) % n ≠ (p + j) % n := by
  intro h
  have h1 : p + i ≡ p + j [MOD n] := h
  have h2 := Nat.ModEq.add_left_cancel' p h1
  have h3 := (Nat.modEq_iff_dvd' (Nat.le_of_lt hij)).1 h2
  have h4 := Nat.le_of_dvd (Nat.sub_pos_of_lt hij) h3
  omega

variable {ndebug : Bool} {b : RingBuffer α} {xs : List α}

theorem holds_new (ndebug : Bool) (nSize : Nat) (fresh : Nat → Option α) : (new ndebug nSize fresh).Holds ndebug
    [] where
  room := Nat.succ_pos nSize
  pop := Nat.succ_pos nSize
  push := (Nat.zero_mod _).symm
  item := by simp
  free := by
    rintro rfl i - -
    rfl

theorem Holds.slot_zero (h : b.Holds ndebug xs) : b.slot 0 = b.nPopPos := Nat.mod_eq_of_lt h.pop

theorem Holds.slot_round (h : b.Holds ndebug xs) : b.slot b.nSize = b.nPopPos := by
  rw [slot, Nat.add_mod_right]
  exact Nat.mod_eq_of_lt h.pop

theorem Holds.isEmpty (h : b.Holds ndebug xs) : b.isEmpty = xs.isEmpty := by
  have h0 := h.slot_zero
  rw [RingBuffer.isEmpty, h.push]
  cases xs with
  | nil => simp [h0]
  | cons x xs =>
    rw [List.isEmpty_cons, beq_eq_false_iff_ne]
    conv => rhs; rw [← h0]
    exact (mod_ne (Nat.succ_pos _) (by have := h.room; omega)).symm

theorem Holds.isFull (h : b.Holds ndebug xs) : b.isFull = decide (xs.length + 1 = b.nSize) := by
  have h0 := h.slot_zero
  have hs : (b.nPushPos + 1) % b.nSize = b.slot (xs.length + 1) := by
    rw [h.push, slot, slot, Nat.mod_add_mod, Nat.add_assoc]
  have hroom := h.room
  rw [RingBuffer.isFull, hs]
  by_cases hl : xs.length + 1 = b.nSize
  · rw [decide_eq_true hl, hl, h.slot_round]
    exact beq_self_eq_true _
  · rw [decide_eq_false hl, beq_eq_false_iff_ne]
    conv => rhs; rw [← h0]
    exact (mod_ne (Nat.succ_pos _) (by omega)).symm

/-- **A push below capacity appends the item.** -/
theorem Holds.pushAtBack (h : b.Holds ndebug xs) (hl : xs.length + 1 < b.nSize) (x : α) :
    ∃ b', b.pushAtBack ndebug (some x) = .ok b' ∧ b'.Holds ndebug (xs ++ [x]) ∧ b'.nSize = b.nSize := by
  have hfull : b.isFull = false := by
    rw [h.isFull]
    exact decide_eq_false (by omega)
  have hfree : ndebug = false → b.pRingBuf b.nPushPos = none := by
    intro hd
    rw [h.push]
    exact h.free hd _ (Nat.le_refl _) h.room
  refine ⟨{ b with
    pRingBuf := Function.update b.pRingBuf b.nPushPos (some x), nPushPos := (b.nPushPos + 1) % b.nSize }, ?_, ?_, rfl⟩
  · cases ndebug with
    | true => rfl
    | false => simp [RingBuffer.pushAtBack, hfull, hfree rfl]
  · exact {
      room := by simpa using hl
      pop := h.pop
      push := by
        show (b.nPushPos + 1) % b.nSize = (b.nPopPos + (xs ++ [x]).length) % b.nSize
        rw [h.push, slot, Nat.mod_add_mod, List.length_append, Nat.add_assoc]
        rfl
      item := by
        intro i hi
        show Function.update b.pRingBuf b.nPushPos (some x) (b.slot i) = some (xs ++ [x])[i]
        rw [List.length_append, List.length_singleton] at hi
        by_cases hx : i < xs.length
        · rw [Function.update_of_ne (by rw [h.push]; exact mod_ne hx (by have := h.room; omega)), h.item i hx,
            List.getElem_append_left hx]
        · obtain rfl : i = xs.length := by omega
          rw [← h.push, Function.update_self, List.getElem_concat_length rfl]
      free := by
        intro hd i hi hn
        show Function.update b.pRingBuf b.nPushPos (some x) (b.slot i) = none
        rw [List.length_append, List.length_singleton] at hi
        have hn' : i < b.nSize := hn
        rw [Function.update_of_ne (by rw [h.push]; exact (mod_ne (by omega) (by omega)).symm)]
        exact h.free hd i (by omega) hn }

/-- **A pop takes the oldest item.** -/
theorem Holds.popAtFront {x : α} (h : b.Holds ndebug (x :: xs)) :
    ∃ b', b.popAtFront ndebug = .ok (b', some x) ∧ b'.Holds ndebug xs ∧ b'.nSize = b.nSize := by
  have h0 := h.slot_zero
  have hx : b.pRingBuf b.nPopPos = some x := by
    rw [← h0]
    exact h.item 0 (Nat.succ_pos _)
  have hroom : xs.length + 1 < b.nSize := h.room
  obtain ⟨b', hb⟩ : ∃ b' : RingBuffer α, b' = { b with
      pRingBuf := if ndebug then b.pRingBuf else Function.update b.pRingBuf b.nPopPos none
      nPopPos := (b.nPopPos + 1) % b.nSize } := ⟨_, rfl⟩
  have hslot : ∀ i, b'.slot i = b.slot (i + 1) := by
    intro i
    rw [hb]
    show ((b.nPopPos + 1) % b.nSize + i) % b.nSize = _
    rw [slot, Nat.mod_add_mod, Nat.add_assoc, Nat.add_comm 1 i]
  -- away from the popped slot nothing changes
  have hkeep : ∀ i, i + 1 < b.nSize → b'.pRingBuf (b'.slot i) = b.pRingBuf (b.slot (i + 1)) := by
    intro i hi
    rw [hslot, hb]
    cases ndebug with
    | true => rfl
    | false => exact Function.update_of_ne (by rw [← h0]; exact (mod_ne (Nat.succ_pos _) (by omega)).symm) _ _
  refine ⟨b', ?_, ?_, by rw [hb]⟩
  · have he : b.isEmpty = false := h.isEmpty
    rw [hb]
    cases ndebug with
    | true => simp [RingBuffer.popAtFront, hx]
    | false => simp [RingBuffer.popAtFront, he, hx]
  · have hn : b'.nSize = b.nSize := by rw [hb]
    exact {
      room := by rw [hn]; omega
      pop := by
        rw [hb]
        exact Nat.mod_lt _ (by show 0 < b.nSize; omega)
      push := by
        rw [hslot, hb]
        exact h.push
      item := by
        intro i hi
        rw [hkeep i (by omega), h.item (i + 1) (by simpa using hi)]
        rfl
      free := by
        intro hd i hi hin
        rw [hn] at hin
        by_cases hl : i + 1 < b.nSize
        · rw [hkeep i hl]
          exact h.free hd (i + 1) (by simpa using hi) hl
        · -- the slot just popped
          have hlast : i + 1 = b.nSize := by omega
          rw [hslot, hlast, h.slot_round, hb, hd]
          exact Function.update_self .. }

end RingBuffer

end DevMgr
