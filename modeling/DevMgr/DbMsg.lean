import DevMgr.MsgServerHandler
/-!
# DbMsg — the `PDU_DBMSG` between the two message handlers

`MsgClient::SendDbMsg` and `MsgServerHandler::Notify` copy a device id into the 64 bytes of `szDevId` with `strncpy`;
`ProcessPDU` of the other side gives `ProcessDbMsg` a pointer to that field, which is read as a C string.  A
`ProcessPDU` is given the memory from the body to the end of the allocation: the body, and behind it what the PDUs
before left there.
-/
namespace DevMgr

open Framing

theorem forall₂_comp {α β γ : Type} {R : α → β → Prop} {S : β → γ → Prop} {T : α → γ → Prop}
    (h : ∀ a b c, R a b → S b c → T a c) {as : List α} {bs : List β} {cs : List γ} (hr : List.Forall₂ R as bs)
    (hs : List.Forall₂ S bs cs) : List.Forall₂ T as cs := by
  induction hr generalizing cs with
  | nil =>
    cases hs
    exact .nil
  | cons hab _ ih =>
    cases hs with
    | cons hbc hbcs => exact .cons (h _ _ _ hab hbc) (ih hbcs)

/-- What `ProcessPDU` does: `ProcessDbMsg` is given a code and the memory at `szDevId[0]`. -/
inductive Processed where
  | ignored
  | asserted
  | dbMsg (msgCode : DWORD) (szDevId : List BYTE)
  deriving DecidableEq, Repr

/-- The body of both `ProcessPDU`s; `ndebug` compiles the assertion out. -/
def processPDU (ndebug : Bool) (pHdr : PduCommHdr) (pBody : List BYTE) : Processed :=
  if pHdr.bCode = cPduDbmsg then
    if !ndebug && pHdr.wBodySize.toNat < sizeofPduDbmsgBody then .asserted else .dbMsg pHdr.dwParam (pBody.drop 4)
  else .ignored

def MsgClient.processPDU (ndebug : Bool) (pHdr : PduCommHdr) (pBody : List BYTE) : Processed :=
  DevMgr.processPDU ndebug pHdr pBody

def MsgServerHandler.processPDU (ndebug : Bool) (pHdr : PduCommHdr) (pBody : List BYTE) : Processed :=
  DevMgr.processPDU ndebug pHdr pBody

/-- The `ProcessPDU` that runs in an object of the class. -/
def HandlerClass.processPDU : HandlerClass → Bool → PduCommHdr → List BYTE → Processed
  | .msgServerHandler => MsgServerHandler.processPDU
  | .myMsgClient => MsgClient.processPDU

theorem HandlerClass.processPDU_eq (cls : HandlerClass) : cls.processPDU = DevMgr.processPDU := by
  cases cls <;> rfl

/-- The memory behind the header in `_biRecv`, when a PDU is delivered. -/
def TransStreamHandler.bodyMem (h : TransStreamHandler) : List BYTE :=
  h.biRecv.mem.drop (h.biRecv.data + sizeofPduCommHdr)

/-- **What `ProcessPDU` is given**: the body of the announced size, and behind it the rest of the allocation. -/
theorem TransStreamHandler.deliver_mem {h h' : TransStreamHandler} {pHdr : PduCommHdr} (hb : h.biRecv.Good)
    (hn : sizeofPduCommHdr + (ntohs pHdr.wBodySize).toNat ≤ h.biRecv.dataSize) (hs : h.deliver pHdr = .ok h') :
    ∃ p rest, h'.pdus = h.pdus ++ [p] ∧ p.body.length = p.hdr.wBodySize.toNat ∧ h.bodyMem = p.body ++ rest := by
  unfold deliver BufferItem.pull at hs
  rw [if_neg (by simp [hb.head])] at hs
  dsimp only at hs
  split at hs
  · cases hs
  · cases hs
    have hn' : sizeofPduCommHdr + (ntohs pHdr.wBodySize).toNat ≤ h.biRecv.dataLen := hn
    have htail := hb.tail
    have hbound := hb.bound
    refine ⟨_, (h.bodyMem).drop (ntohs pHdr.wBodySize).toNat, rfl, ?_, ?_⟩
    · show (List.take _ (List.take _ h.bodyMem)).length = (ntohs pHdr.wBodySize).toNat
      simp only [bodyMem, List.length_take, List.length_drop]
      omega
    · show _ = List.take _ (List.take _ h.bodyMem) ++ _
      have hle : (ntohs pHdr.wBodySize).toNat ≤ h.biRecv.dataLen - sizeofPduCommHdr := by omega
      rw [List.take_take, Nat.min_eq_left hle, List.take_append_drop]

/-- Ignored, or read within its bounds: the zero that ends the string stands in the 64 bytes of `szDevId`, and in the
body. -/
def Processed.InBounds (p : Pdu) : Processed → Prop
  | .ignored => True
  | .asserted => False
  | .dbMsg _ szDevId => ∃ str, cString szDevId = some str ∧ str.length < maxDevIdLen ∧ 4 + str.length < p.body.length

/-- A body with a zero in its `szDevId`; long enough, where the assertion is compiled in. -/
def Terminated (ndebug : Bool) (p : Pdu) : Prop :=
  (ndebug = false → sizeofPduDbmsgBody ≤ p.body.length) ∧ 0 ∈ (p.body.drop 4).take maxDevIdLen

theorem processPDU_inBounds (ndebug : Bool) {p : Pdu} (hp : p.body.length = p.hdr.wBodySize.toNat) (rest : List BYTE) :
    (processPDU ndebug p.hdr (p.body ++ rest)).InBounds p ↔ (p.hdr.bCode = cPduDbmsg → Terminated ndebug p) := by
  unfold processPDU
  by_cases hc : p.hdr.bCode = cPduDbmsg
  · rw [if_pos hc, ← hp]
    unfold Terminated
    split
    · rename_i hshort
      rw [Bool.and_eq_true, Bool.not_eq_true', decide_eq_true_iff] at hshort
      refine ⟨fun h => h.elim, fun h => ?_⟩
      have := (h hc).1 hshort.1
      omega
    · rename_i hlong
      rw [Bool.and_eq_true, Bool.not_eq_true', decide_eq_true_iff] at hlong
      have hsize : ndebug = false → sizeofPduDbmsgBody ≤ p.body.length := by
        intro hn
        by_contra hlt
        exact hlong ⟨hn, by omega⟩
      have hin : ∀ str : List BYTE, 4 + str.length < p.body.length ↔ str.length < (p.body.drop 4).length := by
        intro str
        rw [List.length_drop]
        omega
      rw [← cString_within (p.body.drop 4) (rest.drop (4 - p.body.length)), ← List.drop_append]
      simp only [Processed.InBounds, hin]
      exact ⟨fun h _ => ⟨hsize, h⟩, fun h => (h hc).2⟩
  · rw [if_neg hc]
    exact ⟨fun _ h => absurd h hc, fun _ => trivial⟩

/-! ## The senders -/

/-- `_biSend` of a loaded `MsgClient`: allocated in `Load`, and never released or grown. -/
structure SendBuf where
  item : BufferItem
  head : item.head = true
  room : item.room = pduMaxLength + pduHeadReserve

namespace MsgClient

/-- The `_biSend.Alloc` of `Load`. -/
def load (biSend : BufferItem) (fresh : Nat → BYTE) : Except Assertion BufferItem :=
  biSend.alloc (pduMaxLength + pduHeadReserve) fresh

/-- The item of a `SendDbMsg` call, given to `SendPDU`. -/
def sendDbMsgItem (biSend : BufferItem) (msgCode : DWORD) (szDevId : List BYTE) : Except Assertion BufferItem :=
  match biSend.reset (pduHeadReserve + sizeofPduCommHdr) with
  | .error e => .error e
  | .ok b => match b.putBytes (dwordBytes 1 ++ strncpy szDevId maxDevIdLen) with
    | .error e => .error e
    | .ok b => TransStreamHandler.sendPDU cPduDbmsg true false msgCode b

theorem load_new (fresh : Nat → BYTE) : ∃ x : SendBuf, load .new fresh = .ok x.item := by
  obtain ⟨b, h1, h2, -, -, h5⟩ := BufferItem.alloc_spec (b := .new)
    (show 0 < pduMaxLength + pduHeadReserve by decide) (by decide) fresh
  exact ⟨⟨b, h2.head, h5⟩, h1⟩

/-- A later `Load` finds the room there. -/
theorem load_again (biSend : SendBuf) (fresh : Nat → BYTE) : ∃ x : SendBuf, load biSend.item fresh = .ok x.item := by
  obtain ⟨b, h1, h2, -, -, h5⟩ := BufferItem.alloc_spec (show 0 < pduMaxLength + pduHeadReserve by decide)
    (fun _ => biSend.head) fresh
  exact ⟨⟨b, h2.head, by rw [h5, biSend.room, Nat.max_self]⟩, h1⟩

theorem sendDbMsgItem_spec (biSend : SendBuf) (msgCode : DWORD) (szDevId : List BYTE) :
    ∃ c e old, sendDbMsgItem biSend.item msgCode szDevId = TransStreamHandler.sendPDU cPduDbmsg true false msgCode c ∧
      TransStreamHandler.sendPDU cPduDbmsg true false msgCode c = .ok e ∧
      (c.Good ∧ c.content = dbMsgBody szDevId ∧ c.data = pduHeadReserve + sizeofPduCommHdr) ∧ e.Good ∧
      e.content = hdrBytes (htonl pduMagicNum) (htons (UInt16.ofNat (dbMsgBody szDevId).length)) cPduDbmsg true false
        (htonl msgCode) old ++ dbMsgBody szDevId ∧
      e.room = pduMaxLength + pduHeadReserve := by
  obtain ⟨b, k1, k2, k3, hdata, k5⟩ := BufferItem.reset_spec biSend.head
    (show pduHeadReserve + sizeofPduCommHdr ≤ biSend.item.room by rw [biSend.room]; decide)
  obtain ⟨c, e, old, l1, l2, l3, l4, l5, l6⟩ := dbMsg_spec k2 k3 hdata (by rw [hdata, k5, biSend.room]; decide) true
    msgCode szDevId
  refine ⟨c, e, old, ?_, l2, ⟨l3.1, l3.2.1, l3.2.2.trans hdata⟩, l4, l5, by rw [l6, k5, biSend.room]⟩
  unfold sendDbMsgItem
  rw [k1]
  dsimp only
  rw [show dwordBytes 1 ++ strncpy szDevId maxDevIdLen = dbMsgBody szDevId from rfl, l1]

end MsgClient

/-- **A call leaves `_biSend` as `Load` allocated it**, whatever `Send` did. -/
theorem sendDbMsgItem_keeps (biSend : SendBuf) (msgCode : DWORD) (szDevId : List BYTE) {b : BufferItem} {errno : Nat}
    {poll : Int} {rets : List Int} {o : SendOut} (h : MsgClient.sendDbMsgItem biSend.item msgCode szDevId = .ok b)
    (ho : transInstSend errno poll b rets = .ok o) : ∃ x : SendBuf, x.item = o.item := by
  obtain ⟨c, e, old, h1, h2, -, h3, -, h4⟩ := MsgClient.sendDbMsgItem_spec biSend msgCode szDevId
  rw [h1, h2] at h
  obtain rfl := Except.ok.inj h
  obtain ⟨k1, k2⟩ := transInstSend_keeps ho
  exact ⟨⟨o.item, k1.trans h3.head, (congrArg List.length k2).trans h4⟩, rfl⟩

/-- What `_biSend` of a loaded client can be, over its `Load`s and `SendDbMsg` calls. -/
inductive MsgClient.Loaded : BufferItem → Prop
  | first {fresh : Nat → BYTE} {b : BufferItem} (h : load .new fresh = .ok b) : Loaded b
  | again {fresh : Nat → BYTE} {b b' : BufferItem} (hb : Loaded b) (h : load b fresh = .ok b') : Loaded b'
  | sent {msgCode : DWORD} {szDevId : List BYTE} {b c : BufferItem} {errno : Nat} {poll : Int} {rets : List Int}
      {o : SendOut} (hb : Loaded b) (h : sendDbMsgItem b msgCode szDevId = .ok c)
      (ho : transInstSend errno poll c rets = .ok o) : Loaded o.item

/-- **A loaded client's `_biSend` is as `Load` allocated it.** -/
theorem MsgClient.Loaded.sendBuf {b : BufferItem} (h : Loaded b) : ∃ x : SendBuf, x.item = b := by
  induction h with
  | @first fresh b h =>
    obtain ⟨x, hx⟩ := load_new fresh
    rw [hx] at h
    exact ⟨x, Except.ok.inj h⟩
  | @again fresh b b' _ h ih =>
    obtain ⟨y, rfl⟩ := ih
    obtain ⟨x, hx⟩ := load_again y fresh
    rw [hx] at h
    exact ⟨x, Except.ok.inj h⟩
  | sent _ h ho ih =>
    obtain ⟨y, rfl⟩ := ih
    exact sendDbMsgItem_keeps y _ _ h ho

/-- A `SendDbMsg` of a loaded and connected client, or a `Notify` of the server. -/
inductive DbSender where
  | sendDbMsg (biSend : SendBuf)
  | notify (fresh : Nat → BYTE)

def DbSender.bReq : DbSender → Bool
  | .sendDbMsg _ => true
  | .notify _ => false

/-- The item given to `Send`. -/
def DbSender.item (x : DbSender) (msgCode : DWORD) (szDevId : List BYTE) : Except Assertion BufferItem :=
  match x with
  | .sendDbMsg biSend => MsgClient.sendDbMsgItem biSend.item msgCode szDevId
  | .notify fresh => notifyItem msgCode szDevId fresh

theorem DbSender.item_spec (x : DbSender) (msgCode : DWORD) (szDevId : List BYTE) :
    ∃ c, x.item msgCode szDevId = TransStreamHandler.sendPDU cPduDbmsg x.bReq false msgCode c ∧ c.Good ∧
      sizeofPduCommHdr ≤ c.headSize ∧ c.content = dbMsgBody szDevId := by
  have hle : sizeofPduCommHdr ≤ pduHeadReserve + sizeofPduCommHdr := Nat.le_add_left _ _
  cases x with
  | sendDbMsg biSend =>
    obtain ⟨c, -, -, h1, -, h2, -⟩ := MsgClient.sendDbMsgItem_spec biSend msgCode szDevId
    exact ⟨c, h1, h2.1, hle.trans_eq h2.2.2.symm, h2.2.1⟩
  | notify fresh =>
    obtain ⟨c, -, -, h1, -, h2, -⟩ := notifyItem_spec msgCode szDevId fresh
    exact ⟨c, h1, h2.1, hle.trans_eq h2.2.2.symm, h2.2.1⟩

/-- A call of a sender, with what `select()` and then its `send()` calls return. -/
structure DbCall where
  sender : DbSender
  msgCode : DWORD
  szDevId : List BYTE
  poll : Int
  rets : List Int

namespace DbCall

/-- The socket takes the whole PDU, in parts. -/
structure Sent (x : DbCall) : Prop where
  poll : 0 < x.poll
  parts : ∀ r ∈ x.rets, 0 < r
  whole : x.rets.sum = sizeofPduCommHdr + sizeofPduDbmsgBody

/-- The bytes a call puts on the wire. -/
def transmit (errno : Nat) (x : DbCall) : Except Assertion (List BYTE) :=
  match x.sender.item x.msgCode x.szDevId with
  | .error e => .error e
  | .ok b => match transInstSend errno x.poll b x.rets with
    | .error e => .error e
    | .ok o => .ok o.wire

def transmitAll (errno : Nat) : List DbCall → Except Assertion (List BYTE)
  | [] => .ok []
  | x :: xs => match x.transmit errno with
    | .error e => .error e
    | .ok w => match transmitAll errno xs with
      | .error e => .error e
      | .ok ws => .ok (w ++ ws)

/-- **A call is a `SendPDU` call** with the body `PDU_DBMSG_BODY`. -/
theorem transmit_spec {x : DbCall} (hx : x.Sent) (errno : Nat) :
    ∃ y : SendCall, y.Sendable ∧ x.transmit errno = y.transmit errno ∧ y.bCode = cPduDbmsg ∧ y.dwParam = x.msgCode ∧
      y.item.content = dbMsgBody x.szDevId := by
  obtain ⟨c, h1, h2, h3, h4⟩ := x.sender.item_spec x.msgCode x.szDevId
  refine ⟨⟨cPduDbmsg, x.sender.bReq, false, x.msgCode, c, x.poll, x.rets⟩, ⟨h2, h3, ?_, hx.poll, hx.parts, ?_⟩, ?_, rfl,
    rfl, h4⟩
  · show c.content.length ≤ _
    rw [h4, length_dbMsgBody]
    decide
  · show _ = (sizeofPduCommHdr : Int) + c.content.length
    rw [h4, length_dbMsgBody]
    exact hx.whole
  · unfold transmit
    rw [h1]
    rfl

theorem transmitAll_spec (errno : Nat) : ∀ (xs : List DbCall), (∀ x ∈ xs, x.Sent) →
    ∃ ys : List SendCall, (∀ y ∈ ys, y.Sendable) ∧ transmitAll errno xs = DevMgr.transmitAll errno ys ∧
      List.Forall₂ (fun (y : SendCall) (x : DbCall) =>
        y.bCode = cPduDbmsg ∧ y.dwParam = x.msgCode ∧ y.item.content = dbMsgBody x.szDevId) ys xs
  | [], _ => ⟨[], by simp, rfl, .nil⟩
  | x :: xs, h => by
    obtain ⟨y, h1, h2, h3⟩ := transmit_spec (h x List.mem_cons_self) errno
    obtain ⟨ys, k1, k2, k3⟩ := transmitAll_spec errno xs fun z hz => h z (List.mem_cons_of_mem x hz)
    refine ⟨y :: ys, List.forall_mem_cons.2 ⟨h1, k1⟩, ?_, .cons h3 k3⟩
    unfold transmitAll DevMgr.transmitAll
    cases hy : y.transmit errno with
    | error e => simp only [h2, hy]
    | ok w => cases hys : DevMgr.transmitAll errno ys <;> simp only [h2, hy, k2, hys]

/-- The string `strncpy` was given. -/
def devId (x : DbCall) : List BYTE := x.szDevId.takeWhile (· ≠ 0)

/-- The other side's `ProcessDbMsg` reads the code and the first `MAX_DEV_ID_LEN - 1` bytes of the string, with `rest`
behind the body in its buffer. -/
def Arrives (cls : HandlerClass) (ndebug : Bool) (rest : List BYTE) (p : Pdu) (x : DbCall) : Prop :=
  ∃ szDevId, cls.processPDU ndebug p.hdr (p.body ++ rest) = .dbMsg x.msgCode szDevId ∧
    cString szDevId = some (x.devId.take (maxDevIdLen - 1))

theorem arrives_iff (cls : HandlerClass) (ndebug : Bool) (rest : List BYTE) {p : Pdu} {x : DbCall}
    (h1 : p.hdr.bCode = cPduDbmsg) (h2 : p.hdr.dwParam = x.msgCode)
    (h3 : p.hdr.wBodySize.toNat = sizeofPduDbmsgBody) (h4 : p.body = dbMsgBody x.szDevId) :
    Arrives cls ndebug rest p x ↔ x.devId.length < maxDevIdLen := by
  have hpr : cls.processPDU ndebug p.hdr (p.body ++ rest) =
      .dbMsg x.msgCode (strncpy x.szDevId maxDevIdLen ++ rest) := by
    rw [cls.processPDU_eq, DevMgr.processPDU, if_pos h1, h3, h2, h4, if_neg (by simp)]
    rfl
  have hstr : cString (strncpy x.szDevId maxDevIdLen ++ rest) = some (x.devId.take (maxDevIdLen - 1)) ↔
      x.devId.length ≤ maxDevIdLen - 1 := cString_strncpy x.szDevId rest (by decide)
  have h64 : 0 < maxDevIdLen := by decide
  unfold Arrives
  rw [hpr]
  constructor
  · rintro ⟨szDevId, k1, k2⟩
    cases k1
    have := hstr.1 k2
    omega
  · intro h
    exact ⟨_, rfl, hstr.2 (by omega)⟩

/-- **What a list of calls sends is read by the other side's handler call for call**, however it is cut. -/
theorem transmitAll_read (errno : Nat) {calls : List DbCall} (hs : ∀ x ∈ calls, x.Sent) :
    ∃ wire, transmitAll errno calls = .ok wire ∧
      ∀ (cls : HandlerClass) (fresh : Nat → BYTE) (chunks : List (List BYTE)), chunks.flatten = wire →
        (∀ c ∈ chunks, 1 ≤ c.length ∧ c.length ≤ recvBufRoom) →
        ∃ pdus, freshSession cls fresh chunks = .ok (pdus, false) ∧
          List.Forall₂ (fun (p : Pdu) (x : DbCall) => p.hdr.bCode = cPduDbmsg ∧ p.hdr.dwParam = x.msgCode ∧
            p.hdr.wBodySize.toNat = sizeofPduDbmsgBody ∧ p.body = dbMsgBody x.szDevId) pdus calls := by
  obtain ⟨ys, h1, h2, h3⟩ := transmitAll_spec errno calls hs
  obtain ⟨ws, k1, k2, k3, k4⟩ := DevMgr.transmitAll_spec errno ys h1
  refine ⟨ws.flatten, h2.trans k1, fun cls fresh chunks hc hlen => ?_⟩
  obtain ⟨h, h', m1, m2, m3, m4, -⟩ := session_frames cls fresh k2 k4 hc hlen
  refine ⟨h'.pdus, ?_, ?_⟩
  · unfold freshSession
    rw [m1]
    dsimp only
    rw [m2]
    dsimp only
    rw [m4]
  · rw [m3]
    refine forall₂_comp ?_ k3 h3
    rintro p y x ⟨e1, -, -, e2, e3, e4⟩ ⟨g1, g2, g3⟩
    exact ⟨e1.trans g1, e2.trans g2, by rw [e3, g3, length_dbMsgBody], e4.trans g3⟩

end DbCall

/-- **When a `PDU_DBMSG` is read within its bounds.**  Whatever a peer sends and the buffer holds behind it, a
`ProcessPDU` ignores it or reads a string that ends in its `szDevId`, exactly when its code is another one or its body
has a zero there and is, where the assertion is compiled in, long enough, and what `OnRecvReady` delivers is such a PDU;
and of what `SendDbMsg` and `Notify` send, exactly the ids of fewer than `MAX_DEV_ID_LEN` bytes arrive as the first
`MAX_DEV_ID_LEN - 1` bytes of themselves, from any buffer a loaded client can have. -/
theorem dbMsg_bounds_iff (cls : HandlerClass) (ndebug : Bool) (p : Pdu) (rest : List BYTE)
    (hp : p.body.length = p.hdr.wBodySize.toNat) (errno : Nat) (calls : List DbCall) (hs : ∀ x ∈ calls, x.Sent) :
    ((cls.processPDU ndebug p.hdr (p.body ++ rest)).InBounds p ↔ (p.hdr.bCode = cPduDbmsg → Terminated ndebug p)) ∧
    (∀ {h h' : TransStreamHandler} {pHdr : PduCommHdr}, h.biRecv.Good →
      sizeofPduCommHdr + (ntohs pHdr.wBodySize).toNat ≤ h.biRecv.dataSize → h.deliver pHdr = .ok h' →
      ∃ q behind, h'.pdus = h.pdus ++ [q] ∧ h.bodyMem = q.body ++ behind ∧
        ((cls.processPDU ndebug q.hdr h.bodyMem).InBounds q ↔ (q.hdr.bCode = cPduDbmsg → Terminated ndebug q))) ∧
    (∀ {b : BufferItem}, MsgClient.Loaded b → ∃ biSend : SendBuf, biSend.item = b) ∧
    ∃ wire, DbCall.transmitAll errno calls = .ok wire ∧
      ∀ (fresh : Nat → BYTE) (chunks : List (List BYTE)), chunks.flatten = wire →
        (∀ c ∈ chunks, 1 ≤ c.length ∧ c.length ≤ recvBufRoom) →
        ∃ pdus, freshSession cls fresh chunks = .ok (pdus, false) ∧
          List.Forall₂ (fun (q : Pdu) (x : DbCall) => DbCall.Arrives cls ndebug rest q x ↔ x.devId.length < maxDevIdLen)
            pdus calls := by
  have hbounds : ∀ {q : Pdu} (behind : List BYTE), q.body.length = q.hdr.wBodySize.toNat →
      ((cls.processPDU ndebug q.hdr (q.body ++ behind)).InBounds q ↔
        (q.hdr.bCode = cPduDbmsg → Terminated ndebug q)) := by
    intro q behind hq
    rw [cls.processPDU_eq]
    exact processPDU_inBounds ndebug hq behind
  refine ⟨hbounds rest hp, fun hb hn hd => ?_, fun hb => hb.sendBuf, ?_⟩
  · obtain ⟨q, behind, k1, k2, k3⟩ := TransStreamHandler.deliver_mem hb hn hd
    exact ⟨q, behind, k1, k3, by rw [k3]; exact hbounds behind k2⟩
  obtain ⟨wire, h1, h2⟩ := DbCall.transmitAll_read errno hs
  refine ⟨wire, h1, fun fresh chunks hc hlen => ?_⟩
  obtain ⟨pdus, k1, k2⟩ := h2 cls fresh chunks hc hlen
  refine ⟨pdus, k1, k2.imp ?_⟩
  rintro q x ⟨e1, e2, e3, e4⟩
  exact DbCall.arrives_iff cls ndebug rest e1 e2 e3 e4

/-- A PDU whose `szDevId` has no zero: what `Notify` sends for an id of 64 bytes. -/
def fullField : Pdu :=
  ⟨⟨htonl pduMagicNum, UInt16.ofNat (dbMsgBody (List.replicate 64 0x41)).length, cPduDbmsg, false, false, 0, 3⟩,
    dbMsgBody (List.replicate 64 0x41)⟩

def fullFieldWire : List BYTE :=
  hdrBytes (htonl pduMagicNum) (htons (UInt16.ofNat (dbMsgBody (List.replicate 64 0x41)).length)) cPduDbmsg false false
    (htonl 3) 0 ++ dbMsgBody (List.replicate 64 0x41)

theorem fullField_body : fullField.body = [1, 0, 0, 0] ++ List.replicate 64 0x41 := by
  have h : strncpy (List.replicate 64 0x41) maxDevIdLen = List.replicate 64 0x41 :=
    strncpy_full (by simp) List.length_replicate
  show dwordBytes 1 ++ strncpy (List.replicate 64 0x41) maxDevIdLen = _
  rw [h]
  rfl

theorem fullField_size : fullField.body.length = fullField.hdr.wBodySize.toNat := by
  show (dbMsgBody (List.replicate 64 0x41)).length = (UInt16.ofNat (dbMsgBody (List.replicate 64 0x41)).length).toNat
  rw [length_dbMsgBody]
  rfl

def notifyCall : DbCall :=
  { sender := .notify fun _ => 0, msgCode := 3, szDevId := [0x41, 0x42, 0], poll := 1, rets := [30, 50] }

theorem dbMsg_bounds_iff_fullField :
    ((HandlerClass.msgServerHandler.processPDU true fullField.hdr (fullField.body ++ [0])).InBounds fullField ↔
      (fullField.hdr.bCode = cPduDbmsg → Terminated true fullField)) ∧
    ∃ wire, DbCall.transmitAll 11 [notifyCall] = .ok wire ∧
      ∀ (fresh : Nat → BYTE) (chunks : List (List BYTE)), chunks.flatten = wire →
        (∀ c ∈ chunks, 1 ≤ c.length ∧ c.length ≤ recvBufRoom) →
        ∃ pdus, freshSession .msgServerHandler fresh chunks = .ok (pdus, false) ∧
          List.Forall₂ (fun (q : Pdu) (x : DbCall) =>
            DbCall.Arrives .msgServerHandler true [0] q x ↔ x.devId.length < maxDevIdLen) pdus [notifyCall] := by
  have hs : notifyCall.Sent := ⟨by decide, by decide, by decide⟩
  obtain ⟨h1, -, -, h2⟩ := dbMsg_bounds_iff .msgServerHandler true fullField [0] fullField_size 11 [notifyCall]
    (by simp [hs])
  exact ⟨h1, h2⟩

/-- **The string that does not end in its field**: the bytes the earlier PDUs left behind the body are read as a part
of it; and a body without a `szDevId` fails the assertion. -/
theorem dbMsg_runs_on :
    freshSession .msgServerHandler (fun _ => 0) [fullFieldWire] = .ok ([fullField], false) ∧
    ¬ (HandlerClass.msgServerHandler.processPDU true fullField.hdr (fullField.body ++ [0x42, 0])).InBounds fullField ∧
    HandlerClass.msgServerHandler.processPDU true fullField.hdr (fullField.body ++ [0x42, 0]) =
      .dbMsg 3 (List.replicate 64 0x41 ++ [0x42, 0]) ∧
    HandlerClass.msgServerHandler.processPDU false ⟨htonl pduMagicNum, 0, cPduDbmsg, false, false, 0, 3⟩ [] =
      .asserted := by
  obtain ⟨hf, hp⟩ : pduFormat.IsFrame fullFieldWire ∧
      pduOf (pduFormat.hdr fullFieldWire, fullFieldWire.drop pduFormat.hdrLen) = fullField := by
    unfold fullFieldWire fullField
    exact frame_of_hdrBytes (dbMsgBody (List.replicate 64 0x41)) (by rw [length_dbMsgBody]; decide) cPduDbmsg false
      false 3 0
  have hparse := Format.parse_isFrame hf []
  rw [List.append_nil, Format.parse_nil] at hparse
  have hann := announced_flatten (show ∀ w ∈ [fullFieldWire], pduFormat.IsFrame w by
    intro w hw
    rw [List.mem_singleton.1 hw]
    exact hf)
  rw [List.flatten_singleton] at hann
  have hpr : HandlerClass.msgServerHandler.processPDU true fullField.hdr (fullField.body ++ [0x42, 0]) =
      .dbMsg 3 (List.replicate 64 0x41 ++ [0x42, 0]) := by
    rw [fullField_body]
    rfl
  refine ⟨?_, ?_, hpr, by decide⟩
  · have hlen : fullFieldWire.length = 80 := by
      unfold fullFieldWire
      rw [List.length_append, length_hdrBytes, length_dbMsgBody]
      rfl
    have hbody : pduFormat.frameLen fullFieldWire = 80 := hf.2.2.symm.trans hlen
    unfold Format.frameLen at hbody
    have hsize : ∀ n ∈ pduFormat.announced fullFieldWire, n ≤ pduMaxLength - sizeofPduCommHdr := by
      rw [hann]
      intro n hn
      rw [List.mem_singleton.1 hn]
      have h80 : 80 ≤ pduMaxLength - sizeofPduCommHdr := by decide
      dsimp only
      omega
    rw [freshSession_spec .msgServerHandler (fun _ => 0) hsize List.flatten_singleton (by
      intro c hc
      rw [List.mem_singleton.1 hc, hlen]
      decide)]
    unfold reference
    rw [hparse, List.map_singleton, hp]
  · rw [HandlerClass.processPDU_eq, processPDU_inBounds true fullField_size]
    intro h
    have h0 := (h rfl).2
    rw [fullField_body, List.drop_left' (by rfl), List.take_of_length_le (by simp [maxDevIdLen])] at h0
    exact absurd (List.eq_of_mem_replicate h0) (by decide)

end DevMgr
