import DevMgr.BufferItem
import Mathlib.Algebra.Order.BigOperators.Group.List
import Mathlib.Algebra.Ring.Int.Defs
/-!
# SockIo — what `TransInst` and `TransSockInst` do with a socket

`TransSockInst::Recv` is one `recv()`; `TransSockInst::Send` calls `send()` until the item is empty or a call fails;
`TransInst::Send` waits for the socket first.  The kernel's answers are arguments: a `recv()` returns bytes (none when
the peer closed) or an error, a `send()` the number of bytes it took.  `errno` is never 0.
-/
namespace DevMgr

inductive RecvRes where
  | bytes (bs : List BYTE)
  | failed (errno : Nat)
  deriving DecidableEq, Repr

/-- `TransSockInst::Recv`: the item and `dwRet`. -/
def recv (b : BufferItem) : RecvRes → Except Assertion (BufferItem × Nat)
  | .failed errno => .ok (b, errno + 1)
  | .bytes bs =>
    if bs.length = 0 then .ok (b, errorNotConnected)
    else match b.putBytes bs with
      | .error e => .error e
      | .ok b' => .ok (b', errorSuccess)

/-- What a `Send` did: the bytes it put on the wire, its `dwRet` once it returned, and the item. -/
structure SendOut where
  wire : List BYTE
  dwRet : Option Nat
  item : BufferItem

/-- `TransSockInst::Send`, given what its `send()` calls return in turn; with none left it is still in `send()`. -/
def send (errno : Nat) : BufferItem → List Int → Except Assertion SendOut
  | b, rets =>
    if b.dataSize = 0 then .ok ⟨[], some errorSuccess, b⟩
    else match rets with
      | [] => .ok ⟨[], none, b⟩
      | len :: rets =>
        if len ≤ 0 then .ok ⟨[], some errno, b⟩
        else match b.pull len.toNat with
          | .error e => .error e
          | .ok b' => match send errno b' rets with
            | .error e => .error e
            | .ok o => .ok { o with wire := b.content.take len.toNat ++ o.wire }

/-- `TransSockInst::PollSend`, given what `select()` returned. -/
def pollSend (errno : Nat) (ret : Int) : Nat :=
  if ret < 0 then errno else if ret = 0 then waitTimeout else errorSuccess

/-- `TransInst::Send`. -/
def transInstSend (errno : Nat) (poll : Int) (b : BufferItem) (rets : List Int) : Except Assertion SendOut :=
  if pollSend errno poll = waitFailed then .ok ⟨[], some (pollSend errno poll), b⟩
  else if pollSend errno poll = waitTimeout then .ok ⟨[], some (pollSend errno poll), b⟩
  else send errno b rets

/-- **A `Send` whose `send()` calls take the whole item in parts puts exactly its bytes on the wire.** -/
theorem send_spec (errno : Nat) : ∀ (rets : List Int) {b : BufferItem}, b.Good → (∀ r ∈ rets, 0 < r) →
    rets.sum = b.content.length →
    ∃ o, send errno b rets = .ok o ∧ o.wire = b.content ∧ o.dwRet = some errorSuccess ∧ o.item.content = []
  | [], b, hb, _, hsum => by
    have h0 : b.content = [] := List.length_eq_zero_iff.1 (by simpa using hsum.symm)
    have hd : b.dataSize = 0 := by rw [hb.dataSize_eq, h0]; rfl
    exact ⟨⟨[], some errorSuccess, b⟩, by rw [send, if_pos hd], h0.symm, rfl, h0⟩
  | r :: rets, b, hb, hpos, hsum => by
    have hr : 0 < r := hpos r List.mem_cons_self
    have hpos' : ∀ x ∈ rets, 0 < x := fun x hx => hpos x (List.mem_cons_of_mem r hx)
    have hrest : 0 ≤ rets.sum := List.sum_nonneg fun x hx => Int.le_of_lt (hpos' x hx)
    rw [List.sum_cons] at hsum
    have hd : ¬ b.dataSize = 0 := by rw [hb.dataSize_eq]; omega
    obtain ⟨b', h1, h2, h3, -, -⟩ := BufferItem.pull_spec hb (show r.toNat ≤ b.content.length by omega)
    obtain ⟨o, ho, hw, hret, hitem⟩ := send_spec errno rets h2 hpos' (by rw [h3, List.length_drop]; omega)
    refine ⟨{ o with wire := b.content.take r.toNat ++ o.wire }, ?_, ?_, hret, hitem⟩
    · rw [send, if_neg hd]
      simp only [if_neg (show ¬ r ≤ 0 by omega), h1, ho]
    · show b.content.take r.toNat ++ o.wire = b.content
      rw [hw, h3, List.take_append_drop]

/-- A `Send` moves within the item's allocation. -/
theorem send_keeps (errno : Nat) : ∀ (rets : List Int) {b : BufferItem} {o : SendOut}, send errno b rets = .ok o →
    o.item.head = b.head ∧ o.item.mem = b.mem
  | [], b, o, h => by
    unfold send at h
    split at h <;> cases h <;> exact ⟨rfl, rfl⟩
  | r :: rets, b, o, h => by
    unfold send at h
    split at h
    · cases h
      exact ⟨rfl, rfl⟩
    · dsimp only at h
      split at h
      · cases h
        exact ⟨rfl, rfl⟩
      · split at h
        · cases h
        · rename_i hp
          obtain ⟨h1, h2⟩ := BufferItem.pull_keeps hp
          split at h
          · cases h
          · rename_i hs
            obtain ⟨k1, k2⟩ := send_keeps errno rets hs
            cases h
            exact ⟨k1.trans h1, k2.trans h2⟩

theorem transInstSend_keeps {errno : Nat} {poll : Int} {b : BufferItem} {rets : List Int} {o : SendOut}
    (h : transInstSend errno poll b rets = .ok o) : o.item.head = b.head ∧ o.item.mem = b.mem := by
  unfold transInstSend at h
  split at h
  · cases h
    exact ⟨rfl, rfl⟩
  · split at h
    · cases h
      exact ⟨rfl, rfl⟩
    · exact send_keeps errno rets h

end DevMgr
