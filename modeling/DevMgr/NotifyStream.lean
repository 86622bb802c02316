import DevMgr.DbMsg
/-!
# NotifyStream — what a client's connection carries

A `ClientConn` with the notification each table's call is for (`asked`) and those whose last byte is on the wire
(`sent`), in that order.  While every call sends alone, the wire is one PDU for each of them and a beginning of one
more; so whatever a reader has taken of it by then reads as the first of them, none is read twice and no other one is
read.
-/
namespace DevMgr

open Machines Framing

/-- What a `Notify` call is given. -/
structure Note where
  msgCode : DWORD
  szDevId : List BYTE
  deriving DecidableEq, Repr

/-- A PDU that `ProcessPDU` is given for a notification. -/
structure IsNote (p : Pdu) (n : Note) : Prop where
  bCode : p.hdr.bCode = cPduDbmsg
  dwParam : p.hdr.dwParam = n.msgCode
  wBodySize : p.hdr.wBodySize.toNat = sizeofPduDbmsgBody
  body : p.body = dbMsgBody n.szDevId

/-- The bytes of a notification's PDU. -/
structure Carries (w : List BYTE) (n : Note) : Prop where
  frame : pduFormat.IsFrame w
  note : IsNote (pduOf (pduFormat.hdr w, w.drop pduFormat.hdrLen)) n

theorem Carries.bodyLen {w : List BYTE} {n : Note} (h : Carries w n) :
    pduFormat.bodyLen (pduFormat.hdr w) = sizeofPduDbmsgBody := h.note.wBodySize

theorem notifyItem_carries (msgCode : DWORD) (szDevId : List BYTE) (fresh : Nat → BYTE) :
    ∃ b, notifyItem msgCode szDevId fresh = .ok b ∧ b.Good ∧ Carries b.content ⟨msgCode, szDevId⟩ := by
  obtain ⟨c, e, old, h1, h2, -, h3, h4, -⟩ := notifyItem_spec msgCode szDevId fresh
  obtain ⟨hf, hp⟩ := frame_of_hdrBytes (dbMsgBody szDevId) (by rw [length_dbMsgBody]; decide) cPduDbmsg false false
    msgCode old
  rw [← h4] at hf hp
  refine ⟨e, h1.trans h2, h3, hf, ?_⟩
  rw [hp, length_dbMsgBody]
  exact ⟨rfl, rfl, rfl, rfl⟩

/-- A connection, what its calls are for, and what is whole on the wire. -/
structure NotifyLog where
  conn : ClientConn
  asked : DbTable → Note
  sent : List Note

/-- All of the call's PDU is on the wire. -/
def ended : NotifyPc → Bool
  | .sending _ b => b.dataSize == 0
  | _ => false

namespace NotifyLog

def step (s : NotifyLog) (a : NotifyStep) : Option NotifyLog :=
  match s.conn.step a with
  | none => none
  | some c => match a with
    | .notify t msgCode szDevId _ => some ⟨c, Function.update s.asked t ⟨msgCode, szDevId⟩, s.sent⟩
    | .send t _ => some ⟨c, s.asked, if ended (c.call t) then s.sent ++ [s.asked t] else s.sent⟩
    | .poll _ _ _ | .ret _ => some { s with conn := c }

def start : NotifyLog := { conn := .start, asked := fun _ => ⟨0, []⟩, sent := [] }

/-- What a call has sent and will send is the PDU of what it is for. -/
def CallFor : NotifyPc → Note → Prop
  | .idle, _ => True
  | .polling b, n => b.Good ∧ Carries b.content n
  | .sending sent b, n => b.Good ∧ Carries (sent ++ b.content) n

/-- The wire is the PDUs of what was sent, and `tl`, which is not yet the whole of another. -/
structure OnWire (s : NotifyLog) (ws : List (List BYTE)) (tl : List BYTE) : Prop where
  wire : s.conn.wire = ws.flatten ++ tl
  whole : List.Forall₂ Carries ws s.sent
  begun : ∃ w n, Carries w n ∧ tl <+: w ∧ tl.length < w.length
  tail : s.conn.cut = false → s.conn.Tail tl

structure Inv (s : NotifyLog) : Prop where
  calls : ∀ u, CallFor (s.conn.call u) (s.asked u)
  wire : ∃ ws tl, OnWire s ws tl
  fine : s.conn.failed = false

variable {s s' : NotifyLog} {t : DbTable}

theorem callFor_setCall {c : ClientConn} {asked : DbTable → Note} (h : ∀ u, CallFor (c.call u) (asked u))
    {pc : NotifyPc} {n : Note} (hp : CallFor pc n) :
    ∀ u, CallFor ((c.setCall t pc).call u) (Function.update asked t n u) := by
  intro u
  by_cases hu : u = t
  · subst hu
    rw [ClientConn.setCall_self, Function.update_self]
    exact hp
  · rw [ClientConn.setCall_of_ne c pc hu, Function.update_of_ne hu]
    exact h u

/-- A call that changes without having a PDU partly on the wire. -/
theorem Inv.setCall (h : s.Inv) {pc : NotifyPc} {n : Note} (h0 : ClientConn.begun (s.conn.call t) = false)
    (h1 : ClientConn.begun pc = false) (hp : CallFor pc n) :
    Inv ⟨s.conn.setCall t pc, Function.update s.asked t n, s.sent⟩ := by
  obtain ⟨ws, tl, hw⟩ := h.wire
  exact ⟨callFor_setCall h.calls hp, ⟨ws, tl, hw.wire, hw.whole, hw.begun, fun hc => (hw.tail hc).setCall h0 h1⟩,
    h.fine⟩

theorem Inv.setCall_same (h : s.Inv) {pc : NotifyPc} (h0 : ClientConn.begun (s.conn.call t) = false)
    (h1 : ClientConn.begun pc = false) (hp : CallFor pc (s.asked t)) : Inv { s with conn := s.conn.setCall t pc } := by
  have hi := h.setCall h0 h1 hp
  rwa [Function.update_eq_self] at hi

/-- **What a `send()` does**: the call gives up, or the first bytes of the rest of its PDU go on the wire. -/
theorem sendSome_cases {c c' : ClientConn} {sent : List BYTE} {b : BufferItem} {len : Int} (hb : b.Good)
    (hs : c.sendSome t sent b len = some c') :
    (len ≤ 0 ∧ c' = { c.setCall t .idle with cut := c.cut || !sent.isEmpty }) ∨
    (0 < len ∧ ∃ b' part, b'.Good ∧ part ≠ [] ∧ b.content = part ++ b'.content ∧
      c' = { c.setCall t (.sending (sent ++ part) b') with wire := c.wire ++ part }) := by
  unfold ClientConn.sendSome at hs
  split at hs
  · exact .inl ⟨‹_›, (Option.some.inj hs).symm⟩
  · rename_i hpos
    split at hs
    · rename_i hle
      rw [hb.dataSize_eq] at hle
      obtain ⟨b', h1, h2, h3, -, -⟩ := BufferItem.pull_spec hb hle
      rw [h1] at hs
      refine .inr ⟨by omega, b', b.content.take len.toNat, h2, ?_, ?_, (Option.some.inj hs).symm⟩
      · intro hn
        have := congrArg List.length hn
        rw [List.length_take, List.length_nil] at this
        omega
      · rw [h3, List.take_append_drop]
    · cases hs

/-- The call gives up; a part of its PDU on the wire stays there. -/
theorem Inv.giveUp (h : s.Inv) {sent : List BYTE} {b : BufferItem} (hc : s.conn.call t = .sending sent b)
    (hd : b.dataSize ≠ 0) :
    Inv { s with conn := { s.conn.setCall t .idle with cut := s.conn.cut || !sent.isEmpty } } := by
  obtain ⟨ws, tl, hw⟩ := h.wire
  have hcalls : ∀ u, CallFor ((s.conn.setCall t .idle).call u) (Function.update s.asked t (s.asked t) u) :=
    callFor_setCall h.calls trivial
  rw [Function.update_eq_self] at hcalls
  refine ⟨hcalls, ⟨ws, tl, hw.wire, hw.whole, hw.begun, fun hcut => ?_⟩, h.fine⟩
  have hcut' : s.conn.cut = false ∧ sent = [] := by
    have : (s.conn.cut || !sent.isEmpty) = false := hcut
    simpa using this
  exact (hw.tail hcut'.1).setCall (by rw [hc, ClientConn.begun_sending hd, hcut'.2]; rfl) rfl

/-- **A call that sends alone** puts a part of its PDU behind the parts that are there, or the end of it. -/
theorem Inv.part (h : s.Inv) {sent part : List BYTE} {b b' : BufferItem} (hc : s.conn.call t = .sending sent b)
    (hd : b.dataSize ≠ 0) (hcut : s.conn.cut = false) (ha : ∀ u, u ≠ t → ClientConn.begun (s.conn.call u) = false)
    (hb : b'.Good) (hne : part ≠ []) (hsplit : b.content = part ++ b'.content) :
    Inv ⟨{ s.conn.setCall t (.sending (sent ++ part) b') with wire := s.conn.wire ++ part }, s.asked,
      if b'.dataSize = 0 then s.sent ++ [s.asked t] else s.sent⟩ := by
  obtain ⟨ws, tl, hw⟩ := h.wire
  obtain rfl := (hw.tail hcut).alone hc hd ha
  have hfor : Carries (tl ++ part ++ b'.content) (s.asked t) := by
    have hcall := h.calls t
    rw [hc] at hcall
    have := hcall.2
    rwa [hsplit, ← List.append_assoc] at this
  have hcalls : ∀ u, CallFor ((s.conn.setCall t (.sending (tl ++ part) b')).call u)
      (Function.update s.asked t (s.asked t) u) := callFor_setCall h.calls ⟨hb, hfor⟩
  rw [Function.update_eq_self] at hcalls
  have hother : ∀ u, u ≠ t → ClientConn.begun ((s.conn.setCall t (.sending (tl ++ part) b')).call u) = false := by
    intro u hu
    rw [ClientConn.setCall_of_ne s.conn _ hu]
    exact ha u hu
  refine ⟨hcalls, ?_, h.fine⟩
  by_cases hend : b'.dataSize = 0
  · -- the PDU is whole on the wire
    have hnil : b'.content = [] := List.length_eq_zero_iff.1 (by rw [← hb.dataSize_eq, hend])
    rw [hnil, List.append_nil] at hfor
    refine ⟨ws ++ [tl ++ part], [], ?_, ?_, ⟨_, _, hfor, List.nil_prefix, ?_⟩, fun _ => .inl ⟨rfl, fun u => ?_⟩⟩
    · show s.conn.wire ++ part = _
      rw [hw.wire]
      simp
    · show List.Forall₂ _ _ (if b'.dataSize = 0 then s.sent ++ [s.asked t] else s.sent)
      rw [if_pos hend]
      exact List.rel_append hw.whole (.cons hfor .nil)
    · rw [List.length_append]
      exact Nat.add_pos_right _ (List.length_pos_iff.2 hne)
    · by_cases hu : u = t
      · subst hu
        show ClientConn.begun ((s.conn.setCall u _).call u) = false
        rw [ClientConn.setCall_self]
        simp [ClientConn.begun, hend]
      · exact hother u hu
  · refine ⟨ws, tl ++ part, ?_, ?_, ⟨_, _, hfor, List.prefix_append _ _, ?_⟩, fun _ => .inr ⟨t, b',
      ClientConn.setCall_self .., ?_, hother⟩⟩
    · show s.conn.wire ++ part = _
      rw [hw.wire, List.append_assoc]
    · show List.Forall₂ _ _ (if b'.dataSize = 0 then s.sent ++ [s.asked t] else s.sent)
      rw [if_neg hend]
      exact hw.whole
    · rw [hb.dataSize_eq] at hend
      have hlen : (tl ++ part ++ b'.content).length = (tl ++ part).length + b'.content.length := List.length_append
      omega
    · show ClientConn.begun ((s.conn.setCall t _).call t) = true
      rw [ClientConn.setCall_self, ClientConn.begun_sending hend]
      simp [hne]

theorem Inv.step {a : NotifyStep} (h : s.Inv) (ha : s.conn.Alone a) (hs : s.step a = some s') : s'.Inv := by
  unfold NotifyLog.step at hs
  split at hs
  · cases hs
  rename_i c hstep
  cases a with
  | notify t msgCode szDevId fresh =>
    obtain ⟨b, h1, h2, h3⟩ := notifyItem_carries msgCode szDevId fresh
    simp only [ClientConn.step, h1] at hstep
    obtain ⟨hg, rfl⟩ := guard_some hstep
    cases hs
    exact h.setCall (by rw [hg]; rfl) rfl ⟨h2, h3⟩
  | poll t errno ret =>
    cases hs
    simp only [ClientConn.step] at hstep
    have hw := h.calls t
    split at hstep
    · rename_i b hc
      rw [hc] at hw
      split at hstep
      · cases hstep
        exact h.setCall_same (by rw [hc]; rfl) rfl trivial
      · cases hstep
        exact h.setCall_same (by rw [hc]; rfl) rfl hw
    · cases hstep
  | send t len =>
    cases hs
    simp only [ClientConn.step] at hstep
    split at hstep
    · rename_i sent b hc
      split at hstep
      · cases hstep
      · rename_i hd
        have hgood : b.Good := by
          have := h.calls t
          rw [hc] at this
          exact this.1
        rcases sendSome_cases hgood hstep with ⟨-, rfl⟩ | ⟨hpos, b', part, hb, hne, hsplit, rfl⟩
        · have hended : ended (({ s.conn.setCall t .idle with cut := s.conn.cut || !sent.isEmpty } : ClientConn).call t)
              = false := by
            show ended ((s.conn.setCall t .idle).call t) = false
            rw [ClientConn.setCall_self]
            rfl
          rw [hended]
          exact h.giveUp hc hd
        · have hended : ended (({ s.conn.setCall t (.sending (sent ++ part) b') with
              wire := s.conn.wire ++ part } : ClientConn).call t) = (b'.dataSize == 0) := by
            show ended ((s.conn.setCall t _).call t) = _
            rw [ClientConn.setCall_self]
            rfl
          obtain ⟨hcut, halone⟩ := ha hpos
          simp only [hended, beq_iff_eq]
          exact h.part hc hd hcut halone hb hne hsplit
    · cases hstep
  | ret t =>
    cases hs
    simp only [ClientConn.step] at hstep
    split at hstep
    · rename_i sent b hc
      obtain ⟨hd, rfl⟩ := guard_some hstep
      exact h.setCall_same (by rw [hc]; simp [ClientConn.begun, hd]) rfl trivial
    · cases hstep

theorem inv_start : Inv start where
  calls := fun _ => trivial
  wire := by
    obtain ⟨b, -, -, hc⟩ := notifyItem_carries 0 [] fun _ => 0
    refine ⟨[], [], rfl, .nil, ⟨_, _, hc, List.nil_prefix, ?_⟩, fun _ => .inl ⟨rfl, fun _ => rfl⟩⟩
    exact Nat.lt_of_lt_of_le pduFormat.hdrPos hc.frame.1
  fine := rfl

theorem conn_grows {c c' : ClientConn} {a : NotifyStep} (hs : c.step a = some c') : c.wire <+: c'.wire := by
  cases a with
  | notify t msgCode szDevId fresh =>
    simp only [ClientConn.step] at hs
    split at hs
    · split at hs <;> cases hs <;> exact List.prefix_rfl
    · cases hs
  | poll t errno ret =>
    simp only [ClientConn.step] at hs
    split at hs
    · split at hs <;> cases hs <;> exact List.prefix_rfl
    · cases hs
  | send t len =>
    simp only [ClientConn.step, ClientConn.sendSome] at hs
    split at hs
    · split at hs
      · cases hs
      · split at hs
        · cases hs
          exact List.prefix_rfl
        · split at hs
          · split at hs <;> cases hs
            · exact List.prefix_rfl
            · exact List.prefix_append _ _
          · cases hs
    · cases hs
  | ret t =>
    simp only [ClientConn.step] at hs
    split at hs
    · obtain ⟨-, rfl⟩ := guard_some hs
      exact List.prefix_rfl
    · cases hs

/-- **A step only adds to the wire and to what was sent.** -/
theorem step_grows {a : NotifyStep} (hs : s.step a = some s') : s.conn.wire <+: s'.conn.wire ∧ s.sent <+: s'.sent := by
  unfold NotifyLog.step at hs
  split at hs
  · cases hs
  rename_i c hstep
  refine ⟨?_, ?_⟩
  · have hwire : s'.conn = c := by
      cases a <;> cases hs <;> rfl
    rw [hwire]
    exact conn_grows hstep
  · cases a with
    | send t len =>
      cases hs
      dsimp only
      split
      · exact List.prefix_append _ _
      · exact List.prefix_rfl
    | notify | poll | ret =>
      cases hs
      exact List.prefix_rfl

/-! ## Reading the wire -/

theorem OnWire.frames {ws : List (List BYTE)} {tl : List BYTE} (h : OnWire s ws tl) : ∀ w ∈ ws, pduFormat.IsFrame w :=
  (List.forall₂_and_left _ _ |>.1 (h.whole.imp fun _ _ hc => ⟨hc.frame, hc⟩)).1

theorem OnWire.parse {ws : List (List BYTE)} {tl : List BYTE} (h : OnWire s ws tl) :
    pduFormat.parse s.conn.wire = ⟨ws.map fun w => (pduFormat.hdr w, w.drop pduFormat.hdrLen), tl, false⟩ := by
  obtain ⟨w, n, hc, hp, hlt⟩ := h.begun
  rw [h.wire]
  exact Format.parse_framed h.frames (Format.incomplete_of_begun hc.frame hp hlt)

/-- **What was read of the wire by some byte are the first of the notifications sent**, and all of them once it was read
to its end. -/
structure ReadAs (s : NotifyLog) (k : Nat) (o : Outcome BYTE) : Prop where
  bad : o.bad = false
  le : o.frames.length ≤ s.sent.length
  notes : List.Forall₂ IsNote (o.frames.map pduOf) (s.sent.take o.frames.length)
  all : k = s.conn.wire.length → o.frames.length = s.sent.length

theorem Inv.read (h : s.Inv) (k : Nat) : ReadAs s k (pduFormat.parse (s.conn.wire.take k)) := by
  obtain ⟨ws, tl, hw⟩ := h.wire
  have hparse := hw.parse
  have hlen := hw.whole.length_eq
  obtain ⟨hbad, hpre⟩ := Format.parse_piece (F := pduFormat) (s.conn.wire.take k) (s.conn.wire.drop k)
    (by rw [List.take_append_drop, hparse])
  rw [List.take_append_drop, hparse] at hpre
  refine ⟨hbad, ?_, ?_, ?_⟩
  · rw [← hlen]
    exact hpre.length_le.trans_eq (List.length_map _)
  · conv => lhs; rw [List.prefix_iff_eq_take.1 hpre]
    rw [← List.map_take, List.map_map, List.forall₂_map_left_iff]
    exact (List.forall₂_take _ hw.whole).imp fun _ _ hc => hc.note
  · rintro rfl
    rw [List.take_length, hparse, List.length_map, hlen]

theorem Inv.announced (h : s.Inv) : ∀ n ∈ pduFormat.announced s.conn.wire, n = sizeofPduDbmsgBody := by
  obtain ⟨ws, tl, hw⟩ := h.wire
  obtain ⟨w, n, hc, hp, hlt⟩ := hw.begun
  have hbody := (List.forall₂_and_left _ _ |>.1 (hw.whole.imp fun _ _ hc => ⟨hc.bodyLen, hc⟩)).1
  intro m hm
  rw [hw.wire] at hm
  obtain ⟨x, hx, rfl⟩ := Format.announced_framed hw.frames hc.frame hp hlt hm
  rcases List.mem_cons.1 hx with rfl | hx
  · exact hc.bodyLen
  · exact hbody x hx

end NotifyLog

end DevMgr
