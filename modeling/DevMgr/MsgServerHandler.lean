import DevMgr.Machine
import DevMgr.PduStream
/-!
# MsgServerHandler — notifications to one client of the message server

`MsgServerHandler::Notify` builds a PDU in a buffer of its own and sends it.  The device, the application and the
command table call it (`DbTableBase::Notify`), each under its own `_ObserverLock`: of the calls made on one client at
most one a table is in progress, and the three tables' calls interleave at their `send()` calls.  The labels carry what
`select()` and `send()` return; `wire` is what the client's connection was given.  `MsgClient::SendDbMsg`, the other
sender, holds `_TransLock` over the whole of its call.
-/
namespace DevMgr

open Machines Framing

def sizeofPduDbmsgBody : Nat := 4 + maxDevIdLen

/-- The item of a `Notify` call, given to `SendPDU`. -/
def notifyItem (msgCode : DWORD) (szDevId : List BYTE) (fresh : Nat → BYTE) : Except Assertion BufferItem :=
  match BufferItem.new.alloc (pduHeadReserve + sizeofPduCommHdr + sizeofPduDbmsgBody) fresh with
  | .error e => .error e
  | .ok b => match b.reserve (pduHeadReserve + sizeofPduCommHdr) with
    | .error e => .error e
    | .ok b => match b.putBytes (dwordBytes 1 ++ strncpy szDevId maxDevIdLen) with
      | .error e => .error e
      | .ok b => TransStreamHandler.sendPDU cPduDbmsg false false msgCode b

/-- The bytes of a `PDU_DBMSG_BODY` with `dwDevNum` 1. -/
def dbMsgBody (szDevId : List BYTE) : List BYTE := dwordBytes 1 ++ strncpy szDevId maxDevIdLen

theorem length_dbMsgBody (szDevId : List BYTE) : (dbMsgBody szDevId).length = sizeofPduDbmsgBody := by
  unfold dbMsgBody
  rw [List.length_append, length_strncpy]
  rfl

/-- **A `PDU_DBMSG` is its body behind the reserved headroom**, with a header pushed in front of it. -/
theorem dbMsg_spec {b : BufferItem} (h : b.Good) (h0 : b.content = [])
    (hd : b.data = pduHeadReserve + sizeofPduCommHdr) (hr : b.data + sizeofPduDbmsgBody ≤ b.room) (bReq : Bool)
    (msgCode : DWORD) (szDevId : List BYTE) :
    ∃ c e old, b.putBytes (dbMsgBody szDevId) = .ok c ∧
      TransStreamHandler.sendPDU cPduDbmsg bReq false msgCode c = .ok e ∧
      (c.Good ∧ c.content = dbMsgBody szDevId ∧ c.data = b.data) ∧ e.Good ∧
      e.content = hdrBytes (htonl pduMagicNum) (htons (UInt16.ofNat (dbMsgBody szDevId).length)) cPduDbmsg bReq false
        (htonl msgCode) old ++ dbMsgBody szDevId ∧ e.room = b.room := by
  obtain ⟨c, k1, k2, k3, k4, k5⟩ := BufferItem.putBytes_spec h (dbMsgBody szDevId)
    (by rw [h0, length_dbMsgBody]; exact hr)
  rw [h0, List.nil_append] at k3
  obtain ⟨e, old, m1, m2, m3, m4⟩ := sendPDU_spec k2 (show sizeofPduCommHdr ≤ c.headSize by
    show sizeofPduCommHdr ≤ c.data
    rw [k4, hd]
    exact Nat.le_add_left _ _) cPduDbmsg bReq false msgCode
  rw [k3] at m3
  exact ⟨c, e, old, k1, m1, ⟨k2, k3, k4⟩, m2, m3, m4.trans k5⟩

theorem notifyItem_spec (msgCode : DWORD) (szDevId : List BYTE) (fresh : Nat → BYTE) :
    ∃ c e old, notifyItem msgCode szDevId fresh = TransStreamHandler.sendPDU cPduDbmsg false false msgCode c ∧
      TransStreamHandler.sendPDU cPduDbmsg false false msgCode c = .ok e ∧
      (c.Good ∧ c.content = dbMsgBody szDevId ∧ c.data = pduHeadReserve + sizeofPduCommHdr) ∧ e.Good ∧
      e.content = hdrBytes (htonl pduMagicNum) (htons (UInt16.ofNat (dbMsgBody szDevId).length)) cPduDbmsg false false
        (htonl msgCode) old ++ dbMsgBody szDevId ∧
      e.room = pduHeadReserve + sizeofPduCommHdr + sizeofPduDbmsgBody := by
  obtain ⟨b, h1, h2, h3, h4, h5⟩ := BufferItem.alloc_spec (b := .new)
    (show 0 < pduHeadReserve + sizeofPduCommHdr + sizeofPduDbmsgBody by decide) (by decide) fresh
  have hroom : b.room = 336 := h5
  obtain ⟨b', k1, k2, k3, k4, k5⟩ := BufferItem.reserve_spec h2 h3
    (show b.data + (pduHeadReserve + sizeofPduCommHdr) ≤ b.room by rw [h4, hroom]; decide)
  have hdata : b'.data = pduHeadReserve + sizeofPduCommHdr := by rw [k4, h4]; rfl
  obtain ⟨c, e, old, l1, l2, l3, l4, l5, l6⟩ := dbMsg_spec k2 k3 hdata (by rw [hdata, k5, hroom]; decide) false
    msgCode szDevId
  refine ⟨c, e, old, ?_, l2, ⟨l3.1, l3.2.1, l3.2.2.trans hdata⟩, l4, l5, by rw [l6, k5, hroom]; rfl⟩
  unfold notifyItem
  rw [h1]
  simp only [k1]
  rw [show dwordBytes 1 ++ strncpy szDevId maxDevIdLen = dbMsgBody szDevId from rfl, l1]

inductive DbTable where
  | devTable
  | appTable
  | cmdTable
  deriving DecidableEq, Repr

/-- Where a table's `Notify` call on the client is: in `PollSend`, or in `Send` with `sent` of its PDU on the wire. -/
inductive NotifyPc where
  | idle
  | polling (biSend : BufferItem)
  | sending (sent : List BYTE) (biSend : BufferItem)
  deriving DecidableEq, Repr

/-- A client's connection; `cut` is whether a `Send` returned with its PDU partly sent, `failed` whether an assertion
failed. -/
structure ClientConn where
  call : DbTable → NotifyPc
  wire : List BYTE
  cut : Bool
  failed : Bool

inductive NotifyStep where
  | notify (t : DbTable) (msgCode : DWORD) (szDevId : List BYTE) (fresh : Nat → BYTE)
  | poll (t : DbTable) (errno : Nat) (ret : Int)
  | send (t : DbTable) (len : Int)
  | ret (t : DbTable)

namespace ClientConn

def setCall (s : ClientConn) (t : DbTable) (pc : NotifyPc) : ClientConn :=
  { s with call := Function.update s.call t pc }

@[simp] theorem setCall_self (s : ClientConn) (t : DbTable) (pc : NotifyPc) : (s.setCall t pc).call t = pc :=
  Function.update_self ..

theorem setCall_of_ne (s : ClientConn) {t u : DbTable} (pc : NotifyPc) (h : u ≠ t) :
    (s.setCall t pc).call u = s.call u :=
  Function.update_of_ne h ..

/-- One `send()` of a PDU that is not wholly sent. -/
def sendSome (s : ClientConn) (t : DbTable) (sent : List BYTE) (b : BufferItem) (len : Int) : Option ClientConn :=
  if len ≤ 0 then some { s.setCall t .idle with cut := s.cut || !sent.isEmpty }
  else if len.toNat ≤ b.dataSize then match b.pull len.toNat with
    | .error _ => some { s with failed := true }
    | .ok b' => some { s.setCall t (.sending (sent ++ b.content.take len.toNat) b') with
        wire := s.wire ++ b.content.take len.toNat }
  else none

def step (s : ClientConn) : NotifyStep → Option ClientConn
  | .notify t msgCode szDevId fresh => if s.call t = .idle then match notifyItem msgCode szDevId fresh with
      | .error _ => some { s with failed := true }
      | .ok b => some (s.setCall t (.polling b))
    else none
  | .poll t errno ret => match s.call t with
    | .polling b => if pollSend errno ret = waitFailed ∨ pollSend errno ret = waitTimeout then some (s.setCall t .idle)
      else some (s.setCall t (.sending [] b))
    | _ => none
  | .send t len => match s.call t with
    | .sending sent b => if b.dataSize = 0 then none else s.sendSome t sent b len
    | _ => none
  | .ret t => match s.call t with
    | .sending _ b => if b.dataSize = 0 then some (s.setCall t .idle) else none
    | _ => none

def start : ClientConn := { call := fun _ => .idle, wire := [], cut := false, failed := false }

def machine : Machine ClientConn NotifyStep where
  init s := s = start
  step := step

/-- The call has put a part of its PDU on the wire, and not all of it. -/
def begun : NotifyPc → Bool
  | .sending sent b => !sent.isEmpty && b.dataSize != 0
  | _ => false

/-- **A `send()` that keeps the stream framed**: no other call on the client has its PDU partly on the wire, and none
has returned with its PDU partly sent. -/
def Alone (s : ClientConn) : NotifyStep → Prop
  | .send t len => 0 < len → s.cut = false ∧ ∀ u, u ≠ t → begun (s.call u) = false
  | _ => True

/-- What a call has sent and what it will send are one whole PDU. -/
def Whole : NotifyPc → Prop
  | .idle => True
  | .polling b => b.Good ∧ pduFormat.IsFrame b.content
  | .sending sent b => b.Good ∧ pduFormat.IsFrame (sent ++ b.content)

/-- The last bytes `t` on the wire: none, or the part sent of the one PDU that is begun. -/
def Tail (s : ClientConn) (t : List BYTE) : Prop :=
  (t = [] ∧ ∀ u, begun (s.call u) = false) ∨
    ∃ u b, s.call u = .sending t b ∧ begun (s.call u) = true ∧ ∀ v, v ≠ u → begun (s.call v) = false

structure Inv (s : ClientConn) : Prop where
  whole : ∀ u, Whole (s.call u)
  wire : ∃ (ws : List (List BYTE)) (t : List BYTE), s.wire = ws.flatten ++ t ∧ (∀ w ∈ ws, pduFormat.IsFrame w) ∧
    (∃ w, pduFormat.IsFrame w ∧ t <+: w) ∧ (s.cut = false → Tail s t)
  fine : s.failed = false

/-- **A `Notify` call builds one whole PDU.** -/
theorem notifyItem_frame (msgCode : DWORD) (szDevId : List BYTE) (fresh : Nat → BYTE) :
    ∃ b, notifyItem msgCode szDevId fresh = .ok b ∧ b.Good ∧ pduFormat.IsFrame b.content := by
  obtain ⟨c, e, old, h1, h2, -, h3, h4, -⟩ := notifyItem_spec msgCode szDevId fresh
  refine ⟨e, h1.trans h2, h3, ?_⟩
  rw [h4]
  exact (frame_of_hdrBytes _ (by rw [length_dbMsgBody]; decide) cPduDbmsg false false msgCode old).1

variable {s s' : ClientConn} {a : NotifyStep}

/-- A call that changes without having a PDU partly on the wire before or after. -/
theorem Tail.setCall {tl : List BYTE} {t : DbTable} {pc : NotifyPc} (h : Tail s tl) (h0 : begun (s.call t) = false)
    (h1 : begun pc = false) : Tail (s.setCall t pc) tl := by
  have hold : ∀ v, begun ((s.setCall t pc).call v) = true → v ≠ t ∧ begun (s.call v) = true := by
    intro v hv
    by_cases hvt : v = t
    · subst hvt
      rw [setCall_self, h1] at hv
      cases hv
    · rw [setCall_of_ne s pc hvt] at hv
      exact ⟨hvt, hv⟩
  rcases h with ⟨rfl, hn⟩ | ⟨u, b, hu, hb, hn⟩
  · refine .inl ⟨rfl, fun v => ?_⟩
    rw [← Bool.not_eq_true]
    intro hv
    have := (hold v hv).2
    rw [hn v] at this
    cases this
  · have hut : u ≠ t := by
      rintro rfl
      rw [h0] at hb
      cases hb
    refine .inr ⟨u, b, by rw [setCall_of_ne s pc hut, hu], by rw [setCall_of_ne s pc hut, hb], fun v hv => ?_⟩
    rw [← Bool.not_eq_true]
    intro hv'
    have := (hold v hv').2
    rw [hn v hv] at this
    cases this

theorem whole_setCall (h : ∀ u, Whole (s.call u)) {t : DbTable} {pc : NotifyPc} (hp : Whole pc) :
    ∀ u, Whole ((s.setCall t pc).call u) := by
  intro u
  by_cases hu : u = t
  · subst hu
    rw [setCall_self]
    exact hp
  · rw [setCall_of_ne s pc hu]
    exact h u

/-- A change of a call that puts nothing on the wire and has no PDU partly on it. -/
theorem Inv.setCall (h : Inv s) {t : DbTable} {pc : NotifyPc} (h0 : begun (s.call t) = false) (h1 : begun pc = false)
    (hp : Whole pc) : Inv (s.setCall t pc) := by
  obtain ⟨ws, tl, hw, hws, hpre, htail⟩ := h.wire
  exact ⟨whole_setCall h.whole hp, ⟨ws, tl, hw, hws, hpre, fun hc => (htail hc).setCall h0 h1⟩, h.fine⟩

theorem begun_sending {sent : List BYTE} {b : BufferItem} (hd : b.dataSize ≠ 0) :
    begun (.sending sent b) = !sent.isEmpty := by
  simp [begun, hd]

/-- **A call that sends alone** sends the bytes behind those of its PDU already on the wire. -/
theorem Tail.alone {tl sent : List BYTE} {t : DbTable} {b : BufferItem} (h : Tail s tl)
    (hc : s.call t = .sending sent b)
    (hd : b.dataSize ≠ 0) (ha : ∀ u, u ≠ t → begun (s.call u) = false) : tl = sent := by
  rcases h with ⟨rfl, hn⟩ | ⟨u, b', hu, hb, -⟩
  · have := hn t
    rw [hc, begun_sending hd] at this
    simpa using this.symm
  · by_cases hut : u = t
    · subst hut
      rw [hc] at hu
      exact (NotifyPc.sending.inj hu).1.symm
    · rw [ha u hut] at hb
      cases hb

theorem Inv.send {t : DbTable} {sent : List BYTE} {b : BufferItem} {len : Int} (h : Inv s)
    (hc : s.call t = .sending sent b) (hd : b.dataSize ≠ 0) (ha : Alone s (.send t len))
    (hs : s.sendSome t sent b len = some s') : Inv s' := by
  obtain ⟨ws, tl, hw, hws, hpre, htail⟩ := h.wire
  have hwhole : b.Good ∧ pduFormat.IsFrame (sent ++ b.content) := by
    have := h.whole t
    rw [hc] at this
    exact this
  unfold sendSome at hs
  split at hs
  · -- the call gives up; a part of its PDU on the wire stays there
    cases hs
    refine ⟨whole_setCall h.whole trivial, ⟨ws, tl, hw, hws, hpre, fun hcut => ?_⟩, h.fine⟩
    have hcut' : s.cut = false ∧ sent = [] := by
      have : (s.cut || !sent.isEmpty) = false := hcut
      simpa using this
    exact (htail hcut'.1).setCall (by rw [hc, begun_sending hd, hcut'.2]; rfl) rfl
  · rename_i hpos
    split at hs
    · rename_i hle
      obtain ⟨hcut, halone⟩ := ha (by omega)
      obtain rfl := (htail hcut).alone hc hd halone
      rw [hwhole.1.dataSize_eq] at hle
      obtain ⟨b', h1, h2, h3, -, -⟩ := BufferItem.pull_spec hwhole.1 hle
      rw [h1] at hs
      cases hs
      have hjoin : tl ++ b.content.take len.toNat ++ b'.content = tl ++ b.content := by
        rw [h3, List.append_assoc, List.take_append_drop]
      have hf : pduFormat.IsFrame (tl ++ b.content.take len.toNat ++ b'.content) := by
        rw [hjoin]
        exact hwhole.2
      have hother : ∀ u, u ≠ t →
          begun ((s.setCall t (.sending (tl ++ b.content.take len.toNat) b')).call u) = false := by
        intro u hu
        rw [setCall_of_ne s _ hu]
        exact halone u hu
      refine ⟨whole_setCall h.whole ⟨h2, hf⟩, ?_, h.fine⟩
      by_cases hend : b'.dataSize = 0
      · -- the PDU is whole on the wire
        have hnil : b'.content = [] := List.length_eq_zero_iff.1 (by rw [← h2.dataSize_eq, hend])
        rw [hnil, List.append_nil] at hf
        refine ⟨ws ++ [tl ++ b.content.take len.toNat], [], ?_, ?_, ?_, fun _ => .inl ⟨rfl, fun u => ?_⟩⟩
        · show s.wire ++ b.content.take len.toNat = _
          rw [hw]
          simp
        · intro w hmem
          rcases List.mem_append.1 hmem with hm | hm
          · exact hws w hm
          · rw [List.mem_singleton.1 hm]
            exact hf
        · exact ⟨_, hf, List.nil_prefix⟩
        · by_cases hu : u = t
          · subst hu
            show begun ((s.setCall u _).call u) = false
            rw [setCall_self]
            simp [begun, hend]
          · exact hother u hu
      · refine ⟨ws, tl ++ b.content.take len.toNat, ?_, hws, ⟨_, hf, List.prefix_append _ _⟩, fun _ => .inr ?_⟩
        · show s.wire ++ b.content.take len.toNat = _
          rw [hw, List.append_assoc]
        · refine ⟨t, b', setCall_self .., ?_, hother⟩
          show begun ((s.setCall t _).call t) = true
          have hne : b.content.take len.toNat ≠ [] := by
            intro hn
            have := congrArg List.length hn
            rw [List.length_take, List.length_nil] at this
            omega
          rw [setCall_self, begun_sending hend]
          simp [hne]
    · cases hs

theorem Inv.step (h : Inv s) (ha : Alone s a) (hs : ClientConn.step s a = some s') : Inv s' := by
  cases a with
  | notify t msgCode szDevId fresh =>
    obtain ⟨b, h1, h2, h3⟩ := notifyItem_frame msgCode szDevId fresh
    simp only [ClientConn.step, h1] at hs
    obtain ⟨hg, rfl⟩ := guard_some hs
    exact h.setCall (by rw [hg]; rfl) rfl ⟨h2, h3⟩
  | poll t errno ret =>
    simp only [ClientConn.step] at hs
    have hw := h.whole t
    split at hs
    · rename_i b hc
      rw [hc] at hw
      split at hs
      · cases hs
        exact h.setCall (by rw [hc]; rfl) rfl trivial
      · cases hs
        exact h.setCall (by rw [hc]; rfl) rfl hw
    · cases hs
  | send t len =>
    simp only [ClientConn.step] at hs
    split at hs
    · rename_i sent b hc
      split at hs
      · cases hs
      · exact h.send hc ‹_› ha hs
    · cases hs
  | ret t =>
    simp only [ClientConn.step] at hs
    split at hs
    · rename_i sent b hc
      obtain ⟨hd, rfl⟩ := guard_some hs
      exact h.setCall (by rw [hc]; simp [begun, hd]) rfl trivial
    · cases hs

theorem inv_start : Inv start where
  whole := fun _ => trivial
  wire := by
    obtain ⟨b, -, -, hf⟩ := notifyItem_frame 0 [] fun _ => 0
    exact ⟨[], [], rfl, by simp, ⟨_, hf, List.nil_prefix⟩, fun _ => .inl ⟨rfl, fun _ => rfl⟩⟩
  fine := rfl

/-- **When a client's stream stays framed**: in every run in which no bytes of a PDU are sent while another call's PDU
is partly on the wire, or after a call returned with its PDU partly sent. -/
theorem notify_framed {s : ClientConn} (h : machine.ReachWhen Alone s) :
    pduFormat.Framed s.wire ∧ s.failed = false := by
  have hi : Inv s := Machine.ReachWhen.invariant (by rintro s rfl; exact inv_start)
    (fun _ _ _ hi ha hs => hi.step ha hs) h
  obtain ⟨ws, t, hw, hws, ⟨w, hf, hp⟩, -⟩ := hi.wire
  exact ⟨⟨ws, t, w, hw, hws, hf, hp⟩, hi.fine⟩

instance : ∀ (s : ClientConn) (a : NotifyStep), Decidable (Alone s a)
  | s, .send t _ =>
    decidable_of_iff (_ → s.cut = false ∧ ∀ u ∈ [DbTable.devTable, .appTable, .cmdTable], u ≠ t →
      begun (s.call u) = false)
      (imp_congr_right fun _ => and_congr_right fun _ =>
        ⟨fun h u => h u (by cases u <;> simp), fun h u _ => h u⟩)
  | _, .notify .. | _, .poll .. | _, .ret _ => isTrue trivial

/-- Two tables notify a client one after the other, the first PDU in two parts. -/
def inTurnRun : List NotifyStep := [.notify .devTable 1 [] fun _ => 0, .notify .appTable 9 [] fun _ => 0,
  .poll .devTable 0 1, .send .devTable 1, .poll .appTable 0 1, .send .devTable 79, .send .appTable 80, .ret .devTable,
  .ret .appTable]

theorem notify_framed_inTurn : ∃ s, machine.runWhen Alone start inTurnRun = some s ∧ s.wire.length = 160 ∧
    pduFormat.Framed s.wire := by
  obtain ⟨s, hs, hl⟩ := Option.map_eq_some_iff.1
    (show (machine.runWhen Alone start inTurnRun).map (fun s => s.wire.length) = some 160 by decide +kernel)
  exact ⟨s, hs, hl, (notify_framed (.runWhen (.init rfl) hs)).1⟩

/-- One byte of the device table's PDU, then the whole of the application table's. -/
def mixedRun : List NotifyStep := [.notify .devTable 1 [] fun _ => 0, .notify .appTable 9 [] fun _ => 0,
  .poll .devTable 0 1, .send .devTable 1, .poll .appTable 0 1, .send .appTable 80]

/-- One byte of the device table's PDU before its `send()` fails, then the whole of the application table's. -/
def cutRun : List NotifyStep := [.notify .devTable 1 [] fun _ => 0, .poll .devTable 0 1, .send .devTable 1,
  .send .devTable (-1), .notify .appTable 9 [] fun _ => 0, .poll .appTable 0 1, .send .appTable 80]

/-- **A stream that is not framed**: what follows the first byte is another PDU. -/
theorem notify_mixes : (machine.run start mixedRun).map (fun s => s.wire.take 6) = some [0x55, 0x55, 0x44, 0x50, 0x5F,
    0x00] ∧ (∃ s, machine.run start mixedRun = some s ∧ ¬ pduFormat.Framed s.wire) ∧
    ∃ s, machine.run start cutRun = some s ∧ ¬ pduFormat.Framed s.wire := by
  have hbad : ∀ as, (machine.run start as).map (fun s => (s.wire.length, pduFormat.valid (pduFormat.hdr s.wire))) =
      some (81, false) → ∃ s, machine.run start as = some s ∧ ¬ pduFormat.Framed s.wire := by
    intro as h
    obtain ⟨s, hs, hf⟩ := Option.map_eq_some_iff.1 h
    obtain ⟨hl, hv⟩ := Prod.mk.inj hf
    refine ⟨s, hs, fun hfr => ?_⟩
    rw [hfr.valid_hdr (by rw [hl]; decide)] at hv
    cases hv
  exact ⟨by decide +kernel, hbad mixedRun (by decide +kernel), hbad cutRun (by decide +kernel)⟩

end ClientConn

end DevMgr
