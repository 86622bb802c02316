import DevMgr.MainJni
import DevMgr.NotifyStream
/-!
# Delivery — from a table's `Notify` to `OnEvent`

The server's end of the connection (`NotifyStream`), what the client's mux thread has received of it, the handler's
`OnRecvReady`, `MsgClient::ProcessPDU`, `MyMsgClient::ProcessDbMsg` and the service of `MainJni` as one machine: any
number of sessions, one after the other, of any number of services.  A `recv()` gives bytes that are on the wire, in any
pieces, or fails; the `ProcessPDU` calls of an `OnRecvReady` (`todo`) are made in turn, while the server's tables and
the worker go on.  `nativeConnect` loads a client once a service; `OnStarted` and `OnStopped` stand at the two ends of a
session.

`asked` are the messages that `ProcessDbMsg` was called with, `dropped` counts the calls that found `gMsgRing` full, and
`past` has what each of the sessions before put on the wire.
-/
namespace DevMgr

open Machines Framing

/-- The field of a field is the field. -/
theorem strncpy_strncpy (src rest : List BYTE) (n : Nat) : strncpy (strncpy src n ++ rest) n = strncpy src n := by
  have h0 := zero_notMem_takeWhile src
  unfold strncpy
  generalize src.takeWhile (· ≠ 0) = str at h0
  dsimp only
  by_cases hn : n ≤ str.length
  · have hlen : (str.take n).length = n := List.length_take_of_le hn
    have h0' : 0 ∉ str.take n := fun h => h0 (List.mem_of_mem_take h)
    rw [hlen, Nat.sub_self, List.replicate_zero, List.append_nil, List.takeWhile_append_of_pos, List.take_left' hlen,
      hlen, Nat.sub_self, List.replicate_zero, List.append_nil]
    intro b hb
    exact decide_eq_true fun h => h0' (h ▸ hb)
  · obtain ⟨k, hk⟩ : ∃ k, n - str.length = k + 1 := ⟨n - str.length - 1, by omega⟩
    rw [List.take_of_length_le (show str.length ≤ n by omega), hk, List.replicate_succ, List.append_assoc,
      List.cons_append, takeWhile_ne_zero h0, List.take_of_length_le (show str.length ≤ n by omega), hk,
      List.replicate_succ]

/-- The message of a notification. -/
def Note.item (n : Note) : MsgItem := ⟨n.msgCode, strncpy n.szDevId maxDevIdLen⟩

/-- `MyMsgClient::OnStarted` and `MyMsgClient::OnStopped`. -/
def onStartedItem : MsgItem := Note.item ⟨0x1000, []⟩

def onStoppedItem : MsgItem := Note.item ⟨0x1001, []⟩

/-- **A notification's PDU makes `ProcessPDU` call `ProcessDbMsg`** with its code and its field, whatever is behind. -/
theorem IsNote.processPDU {p : Pdu} {n : Note} (h : IsNote p n) (ndebug : Bool) (rest : List BYTE) :
    MsgClient.processPDU ndebug p.hdr (p.body ++ rest) = .dbMsg n.msgCode (strncpy n.szDevId maxDevIdLen ++ rest) := by
  unfold MsgClient.processPDU DevMgr.processPDU
  rw [if_pos h.bCode, h.wBodySize, h.dwParam, h.body, if_neg (by simp)]
  rfl

structure Delivery where
  server : NotifyLog
  taken : Nat
  handler : TransStreamHandler
  todo : List Pdu
  live : Bool
  jni : MainJni
  asked : List MsgItem
  dropped : Nat
  past : List (List Note)
  failed : Bool

inductive DeliveryStep where
  | server (a : NotifyStep)
  | load (fresh : Nat → BYTE)
  | onStarted
  | recv (x : RecvRes)
  | processPDU (rest : List BYTE)
  | onStopped
  | jni (a : JniStep)

/-- A `recv()` returns bytes that are on the wire and not yet taken, at most as many as there is room for, or fails. -/
def RecvRes.Of (pending : List BYTE) : RecvRes → Prop
  | .bytes bs => bs <+: pending ∧ bs.length ≤ recvBufRoom
  | .failed _ => True

instance (pending : List BYTE) : DecidablePred (RecvRes.Of pending)
  | .bytes _ => inferInstanceAs (Decidable (_ ∧ _))
  | .failed _ => isTrue trivial

/-- The number of bytes a `recv()` returned. -/
def RecvRes.count : RecvRes → Nat
  | .bytes bs => bs.length
  | .failed _ => 0

namespace Delivery

/-- A `ProcessDbMsg` call begins. -/
def processDbMsg (ndebug : Bool) (s : Delivery) (msgCode : DWORD) (szDevId : List BYTE) : Option Delivery :=
  match s.jni.step ndebug (.testEmpty msgCode szDevId) with
  | none => none
  | some j => some { s with jni := j, asked := s.asked ++ [⟨msgCode, strncpy szDevId maxDevIdLen⟩] }

/-- The mux thread calls `OnRecvReady`. -/
def onRecvReady (s : Delivery) (x : RecvRes) : Delivery :=
  match s.handler.onRecvReady x with
  | .error _ => { s with failed := true }
  | .ok h => { s with handler := h, taken := s.taken + x.count, todo := h.pdus.drop s.handler.pdus.length }

def step (ndebug : Bool) (s : Delivery) : DeliveryStep → Option Delivery
  | .server a => match s.server.step a with
    | none => none
    | some c => some { s with server := c }
  | .load fresh => if s.jni.connected then none else match s.jni.step ndebug .nativeConnect with
    | none => none
    | some j => match TransStreamHandler.new.init fresh with
      | .error _ => some { s with failed := true }
      | .ok h => some { s with jni := j, handler := h }
  | .onStarted => if s.live then none else match s.handler.start .myMsgClient with
    | .error _ => some { s with failed := true }
    | .ok h => { s with live := true, server := .start, taken := 0, handler := h }.processDbMsg ndebug 0x1000 []
  | .recv x => if s.live ∧ s.todo = [] ∧ s.jni.producer = .idle ∧ s.handler.bIgnore = false ∧
      x.Of (s.server.conn.wire.drop s.taken) then some (s.onRecvReady x) else none
  | .processPDU rest => match s.todo with
    | [] => none
    | p :: ps => match MsgClient.processPDU ndebug p.hdr (p.body ++ rest) with
      | .ignored => if s.jni.producer = .idle then some { s with todo := ps } else none
      | .asserted => some { s with failed := true }
      | .dbMsg msgCode szDevId => { s with todo := ps }.processDbMsg ndebug msgCode szDevId
  | .onStopped => if s.live ∧ s.todo = [] then
      { s with live := false, past := s.past ++ [s.server.sent] }.processDbMsg ndebug 0x1001 [] else none
  | .jni .push => match s.jni.step ndebug .push with
    | none => none
    | some j => some { s with jni := j, dropped := if s.jni.gMsgRing.isFull then s.dropped + 1 else s.dropped }
  | .jni .unload => if s.live then none else match s.jni.step ndebug .unload with
    | none => none
    | some j => some { s with jni := j }
  | .jni .nativeConnect | .jni (.testEmpty _ _) => none
  | .jni a => match s.jni.step ndebug a with
    | none => none
    | some j => some { s with jni := j }

def start (ndebug : Bool) (fresh : Nat → Option MsgItem) : Delivery :=
  { server := .start, taken := 0, handler := .new, todo := [], live := false, jni := .start ndebug fresh, asked := []
    dropped := 0, past := [], failed := false }

def machine (ndebug : Bool) : Machine Delivery DeliveryStep where
  init s := ∃ fresh, s = start ndebug fresh
  step := step ndebug

/-- **A step that keeps the stream framed**: the tables send each alone, and a session starts with no bytes left from
the one before. -/
def Framed (s : Delivery) : DeliveryStep → Prop
  | .server a => s.server.conn.Alone a
  | .onStarted => s.handler.biRecv.content = []
  | _ => True

/-- The message of a `ProcessDbMsg` call that has not pushed it yet. -/
def inCall : ProducerPc → List MsgItem
  | .tested _ m => [m]
  | _ => []

/-- What `ProcessDbMsg` was called with in sessions that are over: of what each put on the wire the first ones. -/
inductive Serves : List (List Note) → List MsgItem → Prop
  | nil : Serves [] []
  | session {past : List (List Note)} {ms : List MsgItem} (h : Serves past ms) (ns : List Note) (k : Nat) :
    Serves (past ++ [ns]) (ms ++ onStartedItem :: (ns.take k).map Note.item ++ [onStoppedItem])

/-- What the session has given `ProcessDbMsg` of what its server put on the wire. -/
def Asked (s : Delivery) : Prop :=
  ∃ before, Serves s.past before ∧
    if s.live then ∃ done, s.handler.pdus = done ++ s.todo ∧ done.length ≤ s.server.sent.length ∧
      s.asked = before ++ onStartedItem :: (s.server.sent.take done.length).map Note.item
    else s.todo = [] ∧ s.asked = before

/-- The bytes of the wire that the session has taken, as they are read. -/
def reading (s : Delivery) : Outcome BYTE := pduFormat.parse (s.server.conn.wire.take s.taken)

/-- What `_biRecv` holds. -/
structure Loaded (s : Delivery) (off : Nat) (r c : List BYTE) : Prop where
  ready : Ready s.handler off r c
  off : off ≤ pduHeadReserve
  left : s.live = true → r = s.reading.rest

/-- What holds of the two ends of the connection and of the calls made. -/
structure Linked (s : Delivery) : Prop where
  server : s.server.Inv
  taken : s.taken ≤ s.server.conn.wire.length
  connected : s.live = true → s.jni.connected = true
  loaded : s.jni.connected = true → ∃ off r c, Loaded s off r c
  read : s.live = true → s.handler.pdus = s.reading.frames.map pduOf
  asked : s.Asked
  fine : s.failed = false

/-- What holds of the service that was asked to hand on `asked`: it was given them but for those in a call and those
dropped. -/
structure Handed (ndebug : Bool) (j : MainJni) (asked : List MsgItem) (dropped : Nat) : Prop where
  out : j.service = .out → j.connected = false
  offered : (j.pushed ++ inCall j.producer).Sublist asked
  counted : asked.length = (j.pushed ++ inCall j.producer).length + dropped
  queue : ∃ xs, MainJni.Queued ndebug j xs

/-! ## The service -/

section
variable {ndebug : Bool} {j j' : MainJni} {asked : List MsgItem} {dropped : Nat}

theorem Handed.testEmpty (h : Handed ndebug j asked dropped) {msgCode : DWORD} {szDevId : List BYTE}
    (hs : j.step ndebug (.testEmpty msgCode szDevId) = some j') :
    Handed ndebug j' (asked ++ [⟨msgCode, strncpy szDevId maxDevIdLen⟩]) dropped := by
  obtain ⟨xs, hq⟩ := h.queue
  obtain ⟨ys, hy, -⟩ := hq.step hs
  obtain ⟨⟨hcon, hidle⟩, rfl⟩ := guard_some hs
  have hcall : inCall j.producer = [] := by rw [hidle]; rfl
  have hoff := h.offered
  have hcount := h.counted
  rw [hcall, List.append_nil] at hoff hcount
  refine ⟨h.out, hoff.append (.refl _), ?_, ys, hy⟩
  rw [List.length_append, hcount]
  simp [MainJni.testEmpty, inCall]
  omega

theorem Handed.push (h : Handed ndebug j asked dropped) (hs : j.step ndebug .push = some j') :
    Handed ndebug j' asked (if j.gMsgRing.isFull then dropped + 1 else dropped) := by
  obtain ⟨xs, hq⟩ := h.queue
  obtain ⟨ys, hy, -⟩ := hq.step hs
  have hoff := h.offered
  have hcount := h.counted
  simp only [MainJni.step] at hs
  split at hs
  · rename_i bSignal m hp
    cases hs
    rw [hp] at hoff hcount
    have hlen : (j.pushed ++ inCall (.tested bSignal m)).length = j.pushed.length + 1 := by simp [inCall]
    rw [hlen] at hcount
    unfold MainJni.push at hy ⊢
    by_cases hf : j.gMsgRing.isFull = true
    · rw [if_pos hf] at hy ⊢
      rw [if_pos hf]
      refine ⟨h.out, ?_, ?_, ys, hy⟩
      · show (j.pushed ++ []).Sublist asked
        rw [List.append_nil]
        exact (List.sublist_append_left _ _).trans hoff
      · show asked.length = (j.pushed ++ []).length + (dropped + 1)
        rw [List.append_nil, hcount]
        omega
    · rw [if_neg hf] at hy ⊢
      rw [if_neg hf]
      have hf' := hf
      rw [hq.holds.isFull, decide_eq_true_eq] at hf'
      have hroom := hq.holds.room
      obtain ⟨b, h1, -, -⟩ := hq.holds.pushAtBack (show xs.length + 1 < j.gMsgRing.nSize by omega) m
      rw [h1] at hy ⊢
      refine ⟨h.out, ?_, ?_, ys, hy⟩
      · show (j.pushed ++ [m] ++ []).Sublist asked
        rw [List.append_nil]
        exact hoff
      · show asked.length = (j.pushed ++ [m] ++ []).length + dropped
        rw [List.append_nil, hcount, List.length_append]
        rfl
  · cases hs

/-- **A step that is not of a `ProcessDbMsg` call's** leaves what was pushed and what is in the call. -/
theorem step_others {a : JniStep} (hs : j.step ndebug a = some j') (hp : a ≠ .push)
    (ht : ∀ msgCode szDevId, a ≠ .testEmpty msgCode szDevId) :
    j'.pushed = j.pushed ∧ inCall j'.producer = inCall j.producer := by
  cases a with
  | push => exact absurd rfl hp
  | testEmpty msgCode szDevId => exact absurd rfl (ht msgCode szDevId)
  | post =>
    simp only [MainJni.step] at hs
    split at hs
    · rename_i bSignal hc
      cases hs
      rw [hc]
      exact ⟨rfl, rfl⟩
    · cases hs
  | pop =>
    obtain ⟨-, rfl⟩ := guard_some hs
    unfold MainJni.pop
    split <;> exact ⟨rfl, rfl⟩
  | onEvent =>
    simp only [MainJni.step] at hs
    split at hs
    · cases hs
      exact ⟨rfl, rfl⟩
    · cases hs
  | nativeInit | nativeConnect | setQuit | postQuit | join | unload | loopTest | wait | ringTest =>
    obtain ⟨-, rfl⟩ := guard_some hs
    exact ⟨rfl, rfl⟩

theorem step_connected {a : JniStep} (hs : j.step ndebug a = some j') (hi : a ≠ .nativeInit) (hc : a ≠ .nativeConnect)
    (hu : a ≠ .unload) : j'.connected = j.connected ∧ (j'.service = .out → j.service = .out) := by
  cases a with
  | nativeInit => exact absurd rfl hi
  | nativeConnect => exact absurd rfl hc
  | unload => exact absurd rfl hu
  | push =>
    simp only [MainJni.step] at hs
    split at hs
    · cases hs
      unfold MainJni.push
      split
      · exact ⟨rfl, id⟩
      · split <;> exact ⟨rfl, id⟩
    · cases hs
  | post | onEvent =>
    simp only [MainJni.step] at hs
    split at hs
    · cases hs
      exact ⟨rfl, id⟩
    · cases hs
  | pop =>
    obtain ⟨-, rfl⟩ := guard_some hs
    unfold MainJni.pop
    split <;> exact ⟨rfl, id⟩
  | setQuit | postQuit | join =>
    obtain ⟨-, rfl⟩ := guard_some hs
    exact ⟨rfl, fun h => by cases h⟩
  | testEmpty | loopTest | wait | ringTest =>
    obtain ⟨-, rfl⟩ := guard_some hs
    exact ⟨rfl, id⟩

theorem Handed.other (h : Handed ndebug j asked dropped) {a : JniStep} (hs : j.step ndebug a = some j')
    (hp : a ≠ .push) (ht : ∀ msgCode szDevId, a ≠ .testEmpty msgCode szDevId) : Handed ndebug j' asked dropped := by
  obtain ⟨xs, hq⟩ := h.queue
  obtain ⟨ys, hy, -⟩ := hq.step hs
  obtain ⟨h1, h2⟩ := step_others hs hp ht
  refine ⟨?_, by rw [h1, h2]; exact h.offered, by rw [h1, h2]; exact h.counted, ys, hy⟩
  by_cases hn : a = .nativeInit ∨ a = .nativeConnect ∨ a = .unload
  · rcases hn with rfl | rfl | rfl <;> obtain ⟨hg, rfl⟩ := guard_some hs
    · exact fun _ => rfl
    · rw [hg]
      intro hc
      cases hc
    · exact fun _ => rfl
  · obtain ⟨k1, k2⟩ := step_connected hs (fun e => hn (.inl e)) (fun e => hn (.inr (.inl e)))
      (fun e => hn (.inr (.inr e)))
    rw [k1]
    exact fun ho => h.out (k2 ho)

theorem handed_start (fresh : Nat → Option MsgItem) : Handed ndebug (.start ndebug fresh) [] 0 where
  out := fun _ => rfl
  offered := .refl _
  counted := rfl
  queue := ⟨[], MainJni.queued_start fresh⟩

end

/-! ## The two ends of the connection -/

variable {ndebug : Bool} {s s' : Delivery}

/-- **The call after those made is of the next notification.** -/
theorem forall₂_next {α β : Type} {R : α → β → Prop} {b : α} {bs : List α} : ∀ {as : List α} {cs : List β},
    List.Forall₂ R (as ++ b :: bs) cs →
      ∃ c, R b c ∧ cs.take (as.length + 1) = cs.take as.length ++ [c] ∧ as.length + 1 ≤ cs.length
  | [], _, .cons h _ => ⟨_, h, rfl, by simp⟩
  | a :: as, _, .cons _ h => by
    obtain ⟨c, h1, h2, h3⟩ := forall₂_next h
    exact ⟨c, h1, by simp [h2], by simpa using h3⟩

/-- A change of the service that loads no client. -/
theorem Linked.jni (h : Linked s) {j : MainJni} (hl : s.live = true → j.connected = true)
    (hc : j.connected = true → s.jni.connected = true) {dropped : Nat} :
    Linked { s with jni := j, dropped := dropped } :=
  { h with connected := hl, loaded := fun hj =>
      (h.loaded (hc hj)).imp fun _ => Exists.imp fun _ => Exists.imp fun _ k => ⟨k.ready, k.off, k.left⟩ }

theorem take_same {α : Type} {l m : List α} (h : l <+: m) {n : Nat} (hn : n ≤ l.length) : m.take n = l.take n := by
  obtain ⟨t, rfl⟩ := h
  exact List.take_append_of_le_length hn

theorem Linked.server_step (h : Linked s) {a : NotifyStep} {c : NotifyLog} (ha : s.server.conn.Alone a)
    (hs : s.server.step a = some c) : Linked { s with server := c } := by
  obtain ⟨hw, hsent⟩ := NotifyLog.step_grows hs
  have hreading : ({ s with server := c } : Delivery).reading = s.reading := by
    unfold reading
    rw [show ({ s with server := c } : Delivery).server.conn.wire.take s.taken = s.server.conn.wire.take s.taken from
      take_same hw h.taken]
  refine { h with server := h.server.step ha hs, taken := h.taken.trans hw.length_le, loaded := ?_, read := ?_
                  asked := ?_ }
  · intro hc
    obtain ⟨off, r, b, hl⟩ := h.loaded hc
    exact ⟨off, r, b, hl.ready, hl.off, fun hlive => by rw [hreading]; exact hl.left hlive⟩
  · rw [hreading]
    exact h.read
  · obtain ⟨before, hb, hcase⟩ := h.asked
    refine ⟨before, hb, ?_⟩
    show if s.live then _ else _
    split at hcase
    · rename_i hlive
      obtain ⟨done, h1, h2, h3⟩ := hcase
      rw [if_pos hlive]
      exact ⟨done, h1, h2.trans hsent.length_le, by rw [take_same hsent h2]; exact h3⟩
    · rename_i hlive
      rw [if_neg hlive]
      exact hcase

theorem Linked.load (h : Linked s) {j : MainJni} {g : TransStreamHandler} (hlive : s.live = false)
    (hr : Ready g 0 [] []) : Linked { s with jni := j, handler := g } where
  server := h.server
  taken := h.taken
  connected := fun hl => by rw [show s.live = true from hl] at hlive; cases hlive
  loaded := fun _ => ⟨0, [], [], hr, Nat.zero_le _, fun hl => by rw [show s.live = true from hl] at hlive; cases hlive⟩
  read := fun hl => by rw [show s.live = true from hl] at hlive; cases hlive
  asked := by
    obtain ⟨before, hb, hcase⟩ := h.asked
    rw [hlive] at hcase
    refine ⟨before, hb, ?_⟩
    show if s.live then _ else _
    rw [hlive]
    exact hcase
  fine := h.fine

/-- **A session starts** with a wire of its own, nothing read of it and a `ProcessDbMsg` call of `OnStarted`. -/
theorem Linked.onStarted (h : Linked s) {j : MainJni} {g : TransStreamHandler} {off : Nat} {c : List BYTE}
    (hlive : s.live = false) (hc : j.connected = true) (hoff : off ≤ pduHeadReserve) (hr : Ready g off [] c)
    (hp : g.pdus = []) :
    Linked { s with live := true, server := .start, taken := 0, handler := g, jni := j
                    asked := s.asked ++ [onStartedItem] } where
  server := NotifyLog.inv_start
  taken := Nat.le_refl 0
  connected := fun _ => hc
  loaded := fun _ => ⟨off, [], c, hr, hoff, fun _ => by
    unfold reading
    rw [List.take_zero, Format.parse_nil]⟩
  read := fun _ => by
    unfold reading
    rw [show ({ s with live := true, server := .start, taken := 0, handler := g, jni := j
                       asked := s.asked ++ [onStartedItem] } : Delivery).handler.pdus = [] from hp]
    rw [List.take_zero, Format.parse_nil]
    rfl
  asked := by
    obtain ⟨before, hb, hcase⟩ := h.asked
    rw [hlive] at hcase
    obtain ⟨htodo, hasked⟩ := hcase
    refine ⟨before, hb, [], ?_, Nat.zero_le _, ?_⟩
    · show g.pdus = [] ++ s.todo
      rw [hp, htodo]
      rfl
    · show s.asked ++ [onStartedItem] = _
      rw [hasked]
      rfl
  fine := h.fine

/-- **A session ends**, and what it gave `ProcessDbMsg` is a part of what was on its wire. -/
theorem Linked.onStopped (h : Linked s) {j : MainJni} (hlive : s.live = true) (htodo : s.todo = [])
    (hc : j.connected = true → s.jni.connected = true) :
    Linked { s with live := false, past := s.past ++ [s.server.sent], jni := j
                    asked := s.asked ++ [onStoppedItem] } where
  server := h.server
  taken := h.taken
  connected := fun hl => by cases hl
  loaded := fun hj => (h.loaded (hc hj)).imp fun _ => Exists.imp fun _ => Exists.imp fun _ k =>
    ⟨k.ready, k.off, fun hl => by cases hl⟩
  read := fun hl => by cases hl
  asked := by
    obtain ⟨before, hb, hcase⟩ := h.asked
    rw [if_pos hlive] at hcase
    obtain ⟨done, h1, h2, h3⟩ := hcase
    refine ⟨_, hb.session s.server.sent done.length, htodo, ?_⟩
    show s.asked ++ [onStoppedItem] = _
    rw [h3]
  fine := h.fine

/-- **A `ProcessPDU` call is of the next notification**, and asks `ProcessDbMsg` for its message. -/
theorem Linked.next (h : Linked s) (hlive : s.live = true) {p : Pdu} {ps : List Pdu} (htodo : s.todo = p :: ps) :
    ∃ n, IsNote p n ∧ ∀ j : MainJni, j.connected = s.jni.connected →
      Linked { s with todo := ps, jni := j, asked := s.asked ++ [n.item] } := by
  obtain ⟨before, hb, hcase⟩ := h.asked
  rw [if_pos hlive] at hcase
  obtain ⟨done, h1, h2, h3⟩ := hcase
  have hnotes := (h.server.read s.taken).notes
  rw [show (pduFormat.parse (s.server.conn.wire.take s.taken)).frames.map pduOf = s.handler.pdus from
    (h.read hlive).symm, h1, htodo] at hnotes
  obtain ⟨n, hn, htake, hlen⟩ := forall₂_next hnotes
  rw [List.length_take] at hlen
  rw [List.take_take, List.take_take, Nat.min_eq_left (by omega), Nat.min_eq_left (by omega)] at htake
  refine ⟨n, hn, fun j hj => ?_⟩
  refine { server := h.server, taken := h.taken, connected := fun hl => hj.trans (h.connected hl)
           loaded := fun hc => ?_
           read := h.read, asked := ⟨before, hb, ?_⟩, fine := h.fine }
  · obtain ⟨off, r, c, k⟩ := h.loaded (hj.symm.trans hc)
    exact ⟨off, r, c, k.ready, k.off, k.left⟩
  · show if s.live then _ else _
    rw [if_pos hlive]
    refine ⟨done ++ [p], ?_, ?_, ?_⟩
    · show s.handler.pdus = done ++ [p] ++ ps
      rw [h1, htodo, List.append_assoc]
      rfl
    · rw [List.length_append, List.length_singleton]
      show done.length + 1 ≤ s.server.sent.length
      omega
    · show s.asked ++ [n.item] = before ++ onStartedItem :: (s.server.sent.take (done ++ [p]).length).map Note.item
      rw [List.length_append, List.length_singleton, htake, h3, List.map_append]
      simp

/-- A `recv()` that gives nothing ends the reading where it is. -/
theorem Linked.recv_failed (h : Linked s) (hlive : s.live = true) (htodo : s.todo = []) {x : RecvRes}
    (hx : x = .bytes [] ∨ ∃ e, x = .failed e) : Linked (s.onRecvReady x) := by
  obtain ⟨off, r, c, k⟩ := h.loaded (h.connected hlive)
  obtain ⟨g, h1, h2, h3, c', h4⟩ := onRecvReady_failed k.ready hx
  have hcount : x.count = 0 := by rcases hx with rfl | ⟨e, rfl⟩ <;> rfl
  unfold Delivery.onRecvReady
  simp only [h1, hcount, Nat.add_zero, h2, List.drop_length, ← htodo]
  refine { h with loaded := fun _ => ⟨off, r, c', h4, k.off, k.left⟩, read := fun hl => h2.trans (h.read hl)
                  asked := ?_ }
  obtain ⟨before, hb, hcase⟩ := h.asked
  refine ⟨before, hb, ?_⟩
  show if s.live then _ else _
  rw [if_pos hlive] at hcase ⊢
  obtain ⟨done, k1, k2, k3⟩ := hcase
  exact ⟨done, h2.trans k1, k2, k3⟩

/-- **What an `OnRecvReady` takes is read on from there**, and nothing of it is refused. -/
theorem Linked.recv_bytes (h : Linked s) (hlive : s.live = true) (htodo : s.todo = []) (hi : s.handler.bIgnore = false)
    {bs : List BYTE} (hne : bs ≠ []) (hx : (RecvRes.bytes bs).Of (s.server.conn.wire.drop s.taken)) :
    Linked (s.onRecvReady (.bytes bs)) := by
  obtain ⟨off, r, c, k⟩ := h.loaded (h.connected hlive)
  obtain ⟨⟨t, ht⟩, hlen⟩ := hx
  have hread := h.server.read s.taken
  have htake : s.server.conn.wire.take (s.taken + bs.length) = s.server.conn.wire.take s.taken ++ bs := by
    rw [List.take_add, ← ht, List.take_left]
  have hr : r = (pduFormat.parse (s.server.conn.wire.take s.taken)).rest := k.left hlive
  have hparse := Format.parse_append pduFormat (s.server.conn.wire.take s.taken) bs hread.bad
  rw [← hr] at hparse
  have hread' := h.server.read (s.taken + bs.length)
  rw [htake, hparse] at hread'
  have hfits : fits off (pduFormat.announced (r ++ bs)) = true := by
    refine fits_mono k.off ((fits_reserve_iff _).2 fun n hn => ?_)
    have hpre := Format.announced_prefix pduFormat (s.server.conn.wire.take (s.taken + bs.length))
      (s.server.conn.wire.drop (s.taken + bs.length))
    rw [List.take_append_drop, htake, Format.announced_append pduFormat _ _ hread.bad, ← hr] at hpre
    rw [h.server.announced n (hpre.subset (List.mem_append_right _ hn))]
    decide
  have hoff : off + pduFormat.hdrLen ≤ recvRoom :=
    (Nat.add_le_add_right k.off _).trans (show pduHeadReserve + sizeofPduCommHdr ≤ recvRoom by decide)
  have hinc : pduFormat.Incomplete r := hr ▸ Format.incomplete_rest pduFormat _ hread.bad
  rcases onRecvReady_spec k.ready hinc hi hoff hne hlen with ⟨g, h1, hd⟩ | ⟨-, hn⟩
  swap
  · rw [hfits] at hn
    cases hn
  obtain ⟨c', hready⟩ := hd.left
  have hbad : (pduFormat.parse (r ++ bs)).bad = false := hread'.bad
  have hleft : leftover (pduFormat.parse (r ++ bs)) = (pduFormat.parse (r ++ bs)).rest := by
    unfold leftover
    rw [hbad]
    rfl
  rw [hleft] at hready
  unfold Delivery.onRecvReady
  simp only [h1, hd.pdus, List.drop_left]
  refine { server := h.server, taken := ?_, connected := h.connected
           loaded := fun _ => ⟨_, _, c', hready, ?_, fun _ => ?_⟩
           read := fun hl => ?_, asked := ?_, fine := h.fine }
  · have := congrArg List.length ht
    rw [List.length_append, List.length_drop] at this
    have htaken := h.taken
    show s.taken + bs.length ≤ s.server.conn.wire.length
    omega
  · unfold offAfter
    split
    · exact k.off
    · exact Nat.le_refl _
  · show _ = (pduFormat.parse (s.server.conn.wire.take (s.taken + bs.length))).rest
    rw [htake, hparse]
  · show g.pdus = (pduFormat.parse (s.server.conn.wire.take (s.taken + bs.length))).frames.map pduOf
    rw [htake, hparse, hd.pdus, h.read hl, List.map_append]
    rfl
  · obtain ⟨before, hb, hcase⟩ := h.asked
    refine ⟨before, hb, ?_⟩
    show if s.live then _ else _
    rw [if_pos hlive] at hcase ⊢
    obtain ⟨done, k1, k2, k3⟩ := hcase
    rw [htodo, List.append_nil] at k1
    exact ⟨done, hd.pdus.trans (by rw [k1]), k2, k3⟩

theorem Linked.recv (h : Linked s) (hlive : s.live = true) (htodo : s.todo = []) (hi : s.handler.bIgnore = false)
    {x : RecvRes} (hx : x.Of (s.server.conn.wire.drop s.taken)) : Linked (s.onRecvReady x) := by
  by_cases hf : x = .bytes [] ∨ ∃ e, x = .failed e
  · exact h.recv_failed hlive htodo hf
  · cases x with
    | failed e => exact absurd (.inr ⟨e, rfl⟩) hf
    | bytes bs => exact h.recv_bytes hlive htodo hi (fun hn => hf (.inl (by rw [hn]))) hx

/-! ## Every run -/

structure Inv (ndebug : Bool) (s : Delivery) : Prop where
  linked : Linked s
  handed : Handed ndebug s.jni s.asked s.dropped

/-- **A `ProcessDbMsg` call begins** in the state that the caller made. -/
theorem processDbMsg_some {msgCode : DWORD} {szDevId : List BYTE}
    (hs : s.processDbMsg ndebug msgCode szDevId = some s') :
    ∃ j, s.jni.step ndebug (.testEmpty msgCode szDevId) = some j ∧ j.connected = s.jni.connected ∧
      s' = { s with jni := j, asked := s.asked ++ [⟨msgCode, strncpy szDevId maxDevIdLen⟩] } := by
  unfold processDbMsg at hs
  split at hs
  · cases hs
  · rename_i j hj
    refine ⟨j, hj, ?_, (Option.some.inj hs).symm⟩
    obtain ⟨-, rfl⟩ := guard_some hj
    rfl

/-- **The service goes on** by itself, or in its `ProcessDbMsg` call. -/
theorem jni_some {a : JniStep} (hs : s.step ndebug (.jni a) = some s') :
    ∃ j, s.jni.step ndebug a = some j ∧ a ≠ .nativeConnect ∧ (∀ msgCode szDevId, a ≠ .testEmpty msgCode szDevId) ∧
      (a = .unload → s.live = false) ∧
      ((a = .push ∧ s' = { s with jni := j, dropped := if s.jni.gMsgRing.isFull then s.dropped + 1 else s.dropped }) ∨
        (a ≠ .push ∧ s' = { s with jni := j })) := by
  cases a with
  | nativeConnect | testEmpty => cases hs
  | push =>
    simp only [Delivery.step] at hs
    split at hs
    · cases hs
    · rename_i j hj
      exact ⟨j, hj, by simp, by simp, by simp, .inl ⟨rfl, (Option.some.inj hs).symm⟩⟩
  | unload =>
    simp only [Delivery.step] at hs
    split at hs
    · cases hs
    · rename_i hlive
      split at hs
      · cases hs
      · rename_i j hj
        exact ⟨j, hj, by simp, by simp, fun _ => by simpa using hlive, .inr ⟨by simp, (Option.some.inj hs).symm⟩⟩
  | nativeInit | setQuit | postQuit | join | post | loopTest | wait | ringTest | pop | onEvent =>
    simp only [Delivery.step] at hs
    split at hs
    · cases hs
    · rename_i j hj
      exact ⟨j, hj, by simp, by simp, by simp, .inr ⟨by simp, (Option.some.inj hs).symm⟩⟩

theorem Linked.live_of_todo (h : Linked s) {p : Pdu} {ps : List Pdu} (htodo : s.todo = p :: ps) : s.live = true := by
  obtain ⟨before, -, hcase⟩ := h.asked
  by_contra hn
  rw [if_neg hn, htodo] at hcase
  cases hcase.1

/-- A step of the service keeps the client of a session, and makes none. -/
theorem Linked.keeps_client (h : Linked s) (hh : Handed ndebug s.jni s.asked s.dropped) {a : JniStep} {j : MainJni}
    (hs : s.jni.step ndebug a = some j) (hc : a ≠ .nativeConnect) (hu : a = .unload → s.live = false) :
    (s.live = true → j.connected = true) ∧ (j.connected = true → s.jni.connected = true) := by
  by_cases hi : a = .nativeInit
  · subst hi
    obtain ⟨hg, rfl⟩ := guard_some hs
    refine ⟨fun hl => ?_, fun hf => by cases hf⟩
    have := h.connected hl
    rw [hh.out hg] at this
    cases this
  by_cases hun : a = .unload
  · have hlive := hu hun
    subst hun
    obtain ⟨-, rfl⟩ := guard_some hs
    exact ⟨fun hl => (by rw [hlive] at hl; cases hl), fun hf => by cases hf⟩
  · have hcon := (step_connected hs hi hc hun).1
    exact ⟨fun hl => hcon.trans (h.connected hl), fun hj => hcon.symm.trans hj⟩

theorem Inv.step {a : DeliveryStep} (h : Inv ndebug s) (ha : s.Framed a) (hs : s.step ndebug a = some s') :
    Inv ndebug s' := by
  obtain ⟨hl, hh⟩ := h
  cases a with
  | server a =>
    simp only [Delivery.step] at hs
    split at hs
    · cases hs
    · rename_i c hc
      cases hs
      exact ⟨hl.server_step ha hc, hh⟩
  | load fresh =>
    obtain ⟨g, hg, hready, -⟩ := init_spec (h := .new) fresh (by decide) (by decide) (by decide) (by decide)
    simp only [Delivery.step, hg] at hs
    split at hs
    · cases hs
    rename_i hc
    have hlive : s.live = false := by
      by_contra hn
      exact hc (hl.connected (by simpa using hn))
    split at hs
    · cases hs
    · rename_i j hj
      cases hs
      exact ⟨hl.load hlive hready, hh.other hj (by simp) (by simp)⟩
  | onStarted =>
    simp only [Delivery.step] at hs
    split at hs
    · cases hs
    rename_i hlive
    obtain ⟨j, hj, hcon, rfl⟩ := processDbMsg_some hs
    obtain ⟨⟨hc, -⟩, -⟩ := guard_some hj
    obtain ⟨off, r, c, k⟩ := hl.loaded hc
    have hr : r = [] := k.ready.content.symm.trans ha
    subst hr
    exact ⟨hl.onStarted (by simpa using hlive) (hcon.trans hc) k.off
      ⟨k.ready.recv, k.ready.room, k.ready.data, k.ready.content, k.ready.buf, k.ready.bufRoom, k.ready.bufContent⟩ rfl,
      hh.testEmpty hj⟩
  | recv x =>
    obtain ⟨⟨hlive, htodo, -, hi, hx⟩, rfl⟩ := guard_some hs
    refine ⟨hl.recv hlive htodo hi hx, ?_⟩
    unfold Delivery.onRecvReady
    split <;> exact hh
  | processPDU rest =>
    simp only [Delivery.step] at hs
    split at hs
    · cases hs
    rename_i p ps htodo
    have hlive := hl.live_of_todo htodo
    obtain ⟨n, hn, hnext⟩ := hl.next hlive htodo
    rw [hn.processPDU] at hs
    obtain ⟨j, hj, hcon, rfl⟩ := processDbMsg_some hs
    have hitem : (⟨n.msgCode, strncpy (strncpy n.szDevId maxDevIdLen ++ rest) maxDevIdLen⟩ : MsgItem) = n.item := by
      rw [strncpy_strncpy]
      rfl
    have hhand := hh.testEmpty hj
    rw [hitem] at hhand ⊢
    exact ⟨hnext j hcon, hhand⟩
  | onStopped =>
    simp only [Delivery.step] at hs
    split at hs
    · rename_i hg
      obtain ⟨j, hj, hcon, rfl⟩ := processDbMsg_some hs
      exact ⟨hl.onStopped hg.1 hg.2 fun hc => hcon.symm.trans hc, hh.testEmpty hj⟩
    · cases hs
  | jni a =>
    obtain ⟨j, hj, hc, ht, hu, hcase⟩ := jni_some hs
    obtain ⟨k1, k2⟩ := hl.keeps_client hh hj hc hu
    rcases hcase with ⟨rfl, rfl⟩ | ⟨hp, rfl⟩
    · exact ⟨hl.jni k1 k2, hh.push hj⟩
    · exact ⟨hl.jni k1 k2, hh.other hj hp ht⟩

theorem inv_start (fresh : Nat → Option MsgItem) : Inv ndebug (start ndebug fresh) where
  linked :=
    { server := NotifyLog.inv_start
      taken := Nat.le_refl 0
      connected := Bool.noConfusion
      loaded := Bool.noConfusion
      read := Bool.noConfusion
      asked := ⟨[], .nil, rfl, rfl⟩
      fine := rfl }
  handed := handed_start fresh

theorem inv_reach (h : (machine ndebug).ReachWhen Framed s) : Inv ndebug s :=
  Machine.ReachWhen.invariant (by rintro s ⟨fresh, rfl⟩; exact inv_start fresh) (fun _ _ _ hi ha hs => hi.step ha hs) h

/-- What `ProcessDbMsg` was called with: of every session before, of what it put on the wire the first `k`, and the same
of the one that goes on. -/
def AskedOf (s : Delivery) (k : Nat) : Prop :=
  ∃ before, Serves s.past before ∧
    s.asked = before ++ if s.live then onStartedItem :: (s.server.sent.take k).map Note.item else []

/-- **What is handed to `OnEvent` was sent**: in every run in which the tables send each alone and a session starts with
nothing left from the one before, the messages handed on are messages that `ProcessDbMsg` was called with, in that
order; and these are, session for session, `OnStarted`'s, one for each of the first notifications that were whole on
the wire, in their order, and `OnStopped`'s.  No assertion fails. -/
theorem events_sent (h : (machine ndebug).ReachWhen Framed s) :
    s.jni.handed.Sublist s.asked ∧ (∃ k ≤ s.server.sent.length, s.AskedOf k) ∧
      s.failed = false ∧ s.jni.failed = false ∧ s.server.conn.failed = false := by
  obtain ⟨hl, hh⟩ := inv_reach h
  obtain ⟨xs, hq⟩ := hh.queue
  refine ⟨?_, ?_, hl.fine, hq.fine, hl.server.fine⟩
  · have hpushed := hh.offered
    rw [hq.order, List.append_assoc, List.append_assoc] at hpushed
    exact (List.sublist_append_left _ _).trans hpushed
  · obtain ⟨before, hb, hcase⟩ := hl.asked
    split at hcase
    · rename_i hlive
      obtain ⟨done, -, h2, h3⟩ := hcase
      exact ⟨done.length, h2, before, hb, by rw [if_pos hlive]; exact h3⟩
    · rename_i hlive
      exact ⟨0, Nat.zero_le _, before, hb, by rw [if_neg hlive, List.append_nil]; exact hcase.2⟩

/-! ## Nothing is left behind -/

/-- **A step that keeps the stream framed and loses no wakeup.** -/
def Kept (s : Delivery) (a : DeliveryStep) : Prop :=
  s.Framed a ∧ match a with
    | .jni b => MainJni.Signalled s.jni b
    | _ => True

instance : ∀ (s : Delivery) (a : DeliveryStep), Decidable (s.Framed a)
  | s, .server a => inferInstanceAs (Decidable (s.server.conn.Alone a))
  | s, .onStarted => inferInstanceAs (Decidable (s.handler.biRecv.content = []))
  | _, .load _ | _, .recv _ | _, .processPDU _ | _, .onStopped | _, .jni _ => isTrue trivial

instance : ∀ (s : Delivery) (a : DeliveryStep), Decidable (s.Kept a)
  | s, .jni b => inferInstanceAs (Decidable (s.Framed (.jni b) ∧ MainJni.Signalled s.jni b))
  | s, .server a => inferInstanceAs (Decidable (s.Framed (.server a) ∧ True))
  | s, .onStarted => inferInstanceAs (Decidable (s.Framed .onStarted ∧ True))
  | _, .load _ | _, .recv _ | _, .processPDU _ | _, .onStopped => isTrue ⟨trivial, trivial⟩

/-- Of the service a step is one of its own, or the beginning of a `ProcessDbMsg` call, or a `nativeConnect`. -/
theorem service_step {a : DeliveryStep} (hs : s.step ndebug a = some s') :
    s'.jni = s.jni ∨ ∃ b, s.jni.step ndebug b = some s'.jni ∧
      (a = .jni b ∨ b = .nativeConnect ∨ ∃ msgCode szDevId, b = .testEmpty msgCode szDevId) := by
  cases a with
  | server a =>
    simp only [Delivery.step] at hs
    split at hs
    · cases hs
    · cases hs
      exact .inl rfl
  | load fresh =>
    simp only [Delivery.step] at hs
    split at hs
    · cases hs
    split at hs
    · cases hs
    rename_i j hj
    split at hs
    · cases hs
      exact .inl rfl
    · cases hs
      exact .inr ⟨_, hj, .inr (.inl rfl)⟩
  | onStarted =>
    simp only [Delivery.step] at hs
    split at hs
    · cases hs
    split at hs
    · cases hs
      exact .inl rfl
    · obtain ⟨j, hj, -, rfl⟩ := processDbMsg_some hs
      exact .inr ⟨_, hj, .inr (.inr ⟨_, _, rfl⟩)⟩
  | recv x =>
    obtain ⟨-, rfl⟩ := guard_some hs
    left
    unfold Delivery.onRecvReady
    split <;> rfl
  | processPDU rest =>
    simp only [Delivery.step] at hs
    split at hs
    · cases hs
    split at hs
    · obtain ⟨-, rfl⟩ := guard_some hs
      exact .inl rfl
    · cases hs
      exact .inl rfl
    · obtain ⟨j, hj, -, rfl⟩ := processDbMsg_some hs
      exact .inr ⟨_, hj, .inr (.inr ⟨_, _, rfl⟩)⟩
  | onStopped =>
    simp only [Delivery.step] at hs
    split at hs
    · obtain ⟨j, hj, -, rfl⟩ := processDbMsg_some hs
      exact .inr ⟨_, hj, .inr (.inr ⟨_, _, rfl⟩)⟩
    · cases hs
  | jni b =>
    obtain ⟨j, hj, -, -, -, ⟨-, rfl⟩ | ⟨-, rfl⟩⟩ := jni_some hs <;> exact .inr ⟨b, hj, .inl rfl⟩

/-- The worker will be woken for what is in the ring. -/
def Wakes (ndebug : Bool) (j : MainJni) : Prop := ∃ xs, MainJni.Queued ndebug j xs ∧ MainJni.Woken j xs

theorem wakes_step {a : DeliveryStep} (h : Wakes ndebug s.jni) (ha : s.Kept a) (hs : s.step ndebug a = some s') :
    Wakes ndebug s'.jni := by
  obtain ⟨xs, hq, hw⟩ := h
  rcases service_step hs with heq | ⟨b, hb, hcase⟩
  · rw [heq]
    exact ⟨xs, hq, hw⟩
  · refine hw.step hq ?_ hb
    rcases hcase with rfl | rfl | ⟨msgCode, szDevId, rfl⟩
    · exact ha.2
    · trivial
    · trivial

theorem kept_reach (h : (machine ndebug).ReachWhen Kept s) : Inv ndebug s ∧ Wakes ndebug s.jni := by
  refine Machine.ReachWhen.invariant (I := fun s => Inv ndebug s ∧ Wakes ndebug s.jni) ?_ ?_ h
  · rintro s ⟨fresh, rfl⟩
    exact ⟨inv_start fresh, [], MainJni.queued_start fresh, fun hn => absurd rfl hn⟩
  · exact fun _ _ _ hi ha hs => ⟨hi.1.step ha.1 hs, wakes_step hi.2 ha hs⟩

/-- Nothing is on its way: the session has taken the whole wire and made its calls, and the worker waits for a post that
nobody is about to make. -/
structure Quiet (s : Delivery) : Prop where
  taken : s.live = true → s.taken = s.server.conn.wire.length
  todo : s.todo = []
  idle : s.jni.producer = .idle
  waiting : s.jni.worker = .waiting
  event : s.jni.ghEvent = 0

/-- **Nothing that was sent is left behind**: where besides no wakeup is lost and no message found the ring full, all
was handed to `OnEvent` once nothing is on its way any more: of every session before what it had given `ProcessDbMsg`,
and of the one that goes on each notification that was put on the wire. -/
theorem events_complete (h : (machine ndebug).ReachWhen Kept s) (hquiet : s.Quiet) (hd : s.dropped = 0) :
    s.jni.handed = s.asked ∧ s.AskedOf s.server.sent.length := by
  obtain ⟨⟨hl, hh⟩, xs, hq, hw⟩ := kept_reach h
  have hxs : xs = [] := by
    by_contra hne
    rcases hw hne (.inl hquiet.waiting) with h1 | h1
    · rw [hquiet.event] at h1
      exact absurd h1 (Nat.lt_irrefl 0)
    · rw [hquiet.idle] at h1
      cases h1
  have hpushed : s.jni.pushed ++ inCall s.jni.producer = s.jni.handed := by
    rw [hq.order, hquiet.waiting, hquiet.idle, hxs]
    simp [MainJni.inHand, inCall]
  refine ⟨?_, ?_⟩
  · have hoff := hh.offered
    have hcount := hh.counted
    rw [hpushed] at hoff hcount
    exact hoff.eq_of_length (by rw [hcount, hd]; rfl)
  · obtain ⟨before, hb, hcase⟩ := hl.asked
    refine ⟨before, hb, ?_⟩
    split at hcase
    · rename_i hlive
      obtain ⟨done, h1, h2, h3⟩ := hcase
      have hall := (hl.server.read s.taken).all (hquiet.taken hlive)
      have hlen : done.length = s.server.sent.length := by
        have := congrArg List.length ((hl.read hlive).symm.trans h1)
        rw [hquiet.todo, List.append_nil, List.length_map] at this
        exact this.symm.trans hall
      rw [if_pos hlive, ← hlen]
      exact h3
    · rename_i hlive
      rw [if_neg hlive, List.append_nil]
      exact hcase.2

/-- A step that is the service's alone. -/
def own : JniStep → Bool
  | .push | .unload | .nativeConnect | .testEmpty _ _ => false
  | _ => true

theorem own_step {b : JniStep} (hb : own b = true) {j : MainJni} (hs : s.jni.step ndebug b = some j) :
    s.step ndebug (.jni b) = some { s with jni := j } := by
  cases b with
  | push | unload | nativeConnect | testEmpty => cases hb
  | nativeInit | setQuit | postQuit | join | post | loopTest | wait | ringTest | pop | onEvent =>
    simp only [Delivery.step, hs]

/-- **A run of the service is one of the whole**, of which nothing else moves. -/
theorem after_service : ∀ {bs : List JniStep} {s : Delivery} {j : MainJni}, (∀ b ∈ bs, own b = true) →
    (MainJni.machine ndebug).runWhen MainJni.Signalled s.jni bs = some j → (machine ndebug).ReachWhen Kept s →
    (machine ndebug).ReachWhen Kept { s with jni := j }
  | [], s, j, _, hr, h => by
    cases hr
    exact h
  | b :: bs, s, j, hown, hr, h => by
    obtain ⟨hok, i, hi, hr⟩ := Machine.runWhen_cons.1 hr
    exact after_service (s := { s with jni := i }) (fun c hc => hown c (List.mem_cons_of_mem b hc)) hr
      (h.step (a := .jni b) ⟨trivial, hok⟩ (own_step (hown b List.mem_cons_self) hi))

theorem push_step (hr : s.jni.gMsgRing.isFull = false) {j : MainJni} (hs : s.jni.step ndebug .push = some j) :
    s.step ndebug (.jni .push) = some { s with jni := j } := by
  simp only [Delivery.step, hs, hr]
  rfl

theorem processPDU_step {p : Pdu} {ps : List Pdu} {n : Note} (htodo : s.todo = p :: ps) (hn : IsNote p n)
    {rest : List BYTE} {j : MainJni}
    (hs : s.jni.step ndebug (.testEmpty n.msgCode (strncpy n.szDevId maxDevIdLen ++ rest)) = some j) :
    s.step ndebug (.processPDU rest) = some { s with todo := ps, jni := j, asked := s.asked ++ [n.item] } := by
  simp only [Delivery.step, htodo, hn.processPDU, processDbMsg, hs, strncpy_strncpy]
  rfl

theorem onRecvReady_ok {x : RecvRes} (hf : (s.onRecvReady x).failed = false) :
    ∃ g, s.onRecvReady x = { s with handler := g, taken := s.taken + x.count
                                    todo := g.pdus.drop s.handler.pdus.length } := by
  unfold Delivery.onRecvReady at hf ⊢
  cases h : s.handler.onRecvReady x with
  | error e =>
    rw [h] at hf
    cases hf
  | ok g => exact ⟨g, rfl⟩

/-- A session starts, its message is handed on, and the device table notifies of a device. -/
def sentRun : List DeliveryStep := [.jni .nativeInit, .jni .loopTest, .load fun _ => 0, .onStarted, .jni .push,
  .jni .post, .jni .wait, .jni .ringTest, .jni .pop, .jni .onEvent, .jni .ringTest, .jni .loopTest,
  .server (.notify .devTable 1 [0x41] fun _ => 0), .server (.poll .devTable 0 1), .server (.send .devTable 80)]

/-- What the service does of it when it has come. -/
def handRun : List JniStep := [.post, .wait, .ringTest, .pop, .onEvent, .ringTest, .loopTest]

def callRun : List JniStep := .testEmpty 1 (strncpy [0x41] maxDevIdLen ++ []) :: .push :: handRun

theorem delivered_once : ∃ s, (machine false).ReachWhen Kept s ∧ s.Quiet ∧ s.dropped = 0 ∧
    s.asked = [onStartedItem, Note.item ⟨1, [0x41]⟩] := by
  obtain ⟨s, hs, hv⟩ := Option.map_eq_some_iff.1 (show ((machine false).runWhen Kept (start false fun _ => none)
    sentRun).map (fun s => ([s.live, s.handler.bIgnore, s.jni.gMsgRing.isFull, s.todo.isEmpty, s.handler.pdus.isEmpty],
      [s.taken, s.server.conn.wire.length, s.dropped])) = some ([true, false, false, true, true], [0, 80, 0])
    by decide +kernel)
  have hsaid := show ((machine false).runWhen Kept (start false fun _ => none) sentRun).map
    (fun s => (s.jni.producer, s.server.sent, s.asked)) = some (.idle, [⟨1, [0x41]⟩], [onStartedItem])
    by decide +kernel
  have hcall := show (((machine false).runWhen Kept (start false fun _ => none) sentRun).bind fun s =>
    (MainJni.machine false).runWhen MainJni.Signalled s.jni callRun).map (fun j => (j.producer, j.worker, j.ghEvent)) =
    some (.idle, .waiting, 0) by decide +kernel
  rw [hs] at hsaid hcall
  simp only [Prod.mk.injEq, List.cons.injEq, and_true, List.isEmpty_iff] at hv
  obtain ⟨⟨hlive, hi, hroom, htodo, hpdus⟩, htaken, hlen, hdrop⟩ := hv
  simp only [Option.map_some, Option.some.injEq, Prod.mk.injEq] at hsaid
  obtain ⟨hidle, hsent, hasked⟩ := hsaid
  rw [Option.bind_some] at hcall
  obtain ⟨j, hj, hquiet⟩ := Option.map_eq_some_iff.1 hcall
  simp only [Prod.mk.injEq] at hquiet
  have h₀ : (machine false).ReachWhen Kept s := .runWhen (.init ⟨_, rfl⟩) hs
  -- the whole PDU is received, and read
  have h₁ : (machine false).ReachWhen Kept (s.onRecvReady (.bytes s.server.conn.wire)) := by
    refine h₀.step (a := .recv (.bytes s.server.conn.wire)) ⟨trivial, trivial⟩
      (if_pos ⟨hlive, htodo, hidle, hi, ?_, ?_⟩)
    · rw [htaken]
      exact List.prefix_rfl
    · rw [hlen]
      decide
  have hl := (kept_reach h₁).1.linked
  obtain ⟨g, hg⟩ := onRecvReady_ok hl.fine
  rw [hg] at h₁ hl
  have htodo' : g.pdus.drop s.handler.pdus.length = g.pdus := by rw [hpdus]; rfl
  rw [htodo'] at h₁ hl
  have hcount : s.taken + (RecvRes.bytes s.server.conn.wire).count = s.server.conn.wire.length := by
    rw [htaken, Nat.zero_add]
    rfl
  have hread := hl.server.read (s.taken + (RecvRes.bytes s.server.conn.wire).count)
  have hnotes := hread.notes
  rw [hread.all hcount] at hnotes
  have hpdus' : g.pdus = (pduFormat.parse (s.server.conn.wire.take _)).frames.map pduOf := hl.read hlive
  obtain ⟨p, hp, hn⟩ : ∃ p, g.pdus = [p] ∧ IsNote p ⟨1, [0x41]⟩ := by
    rw [← hpdus', List.take_length, show ({ s with handler := g } : Delivery).server.sent = _ from hsent] at hnotes
    obtain ⟨p, ps, h1, h2, h3⟩ := List.forall₂_cons_right_iff.1 hnotes
    rw [List.forall₂_nil_right_iff.1 h2] at h3
    exact ⟨p, h3, h1⟩
  rw [hp] at h₁
  obtain ⟨t, ht, hjni, htodo₁, htaken₁, hasked₁, hdrop₁⟩ : ∃ t, (machine false).ReachWhen Kept t ∧ t.jni = s.jni ∧
      t.todo = [p] ∧ t.taken = t.server.conn.wire.length ∧ t.asked = [onStartedItem] ∧ t.dropped = 0 :=
    ⟨_, h₁, rfl, rfl, hcount, hasked, hdrop⟩
  -- `ProcessPDU` makes its `ProcessDbMsg` call, and the worker hands the message on
  obtain ⟨-, j₁, hj₁, hrest⟩ := Machine.runWhen_cons.1 hj
  obtain ⟨hok, j₂, hj₂, hrest⟩ := Machine.runWhen_cons.1 hrest
  have hring : j₁.gMsgRing.isFull = false := by
    obtain ⟨-, rfl⟩ := guard_some hj₁
    exact hroom
  have h₂ := ht.step (a := DeliveryStep.processPDU []) ⟨trivial, trivial⟩
    (processPDU_step htodo₁ hn (by rw [hjni]; exact hj₁))
  have h₃ := h₂.step (a := DeliveryStep.jni .push) ⟨trivial, hok⟩ (push_step hring hj₂)
  have h₄ := after_service (by decide) hrest h₃
  exact ⟨_, h₄, ⟨fun _ => htaken₁, rfl, hquiet.1, hquiet.2.1, hquiet.2.2⟩, hdrop₁, by rw [hasked₁]; rfl⟩

theorem events_sent_once : ∃ s, (machine false).ReachWhen Kept s ∧ s.jni.handed.Sublist s.asked ∧
    s.asked = [onStartedItem, Note.item ⟨1, [0x41]⟩] := by
  obtain ⟨s, h, -, -, hasked⟩ := delivered_once
  exact ⟨s, h, (events_sent (h.imp fun _ _ => And.left)).1, hasked⟩

theorem events_complete_once : ∃ s, (machine false).ReachWhen Kept s ∧ s.Quiet ∧
    s.jni.handed = [onStartedItem, Note.item ⟨1, [0x41]⟩] := by
  obtain ⟨s, h, hquiet, hd, hasked⟩ := delivered_once
  exact ⟨s, h, hquiet, ((events_complete h hquiet hd).1).trans hasked⟩

end Delivery

end DevMgr
