import DevMgr.TransStreamHandler
/-!
# Decoder — the decoder against the reference reading

`OnRecvReady` over the chunks of a session does what `Format.parse` does on the bytes put together: the same PDUs, and
`EndSession` exactly at a header with the wrong magic — as long as every announced body fits behind its header in the
allocation of `_biRecv` (`fits`); otherwise it runs to the first body that does not fit, and a `Put` for that body fails
its assertion.
-/
namespace DevMgr

open Framing

/-- The allocation of `_biRecv`. -/
def recvRoom : Nat := pduMaxLength + pduHeadReserve

def recvBufRoom : Nat := pduMaxLength * 2 + pduHeadReserve

/-- **Each announced body fits behind its header**, the first at headroom `off`, the later ones at the headroom every
`Reset` leaves. -/
def fits : Nat → List Nat → Bool
  | _, [] => true
  | off, n :: ns => decide (off + sizeofPduCommHdr + n ≤ recvRoom) && fits pduHeadReserve ns

/-- The headroom once `ns` are read. -/
def offAfter (off : Nat) (ns : List Nat) : Nat := if ns = [] then off else pduHeadReserve

theorem fits_cons (off n : Nat) (ns : List Nat) :
    fits off (n :: ns) = true ↔ off + sizeofPduCommHdr + n ≤ recvRoom ∧ fits pduHeadReserve ns = true := by
  simp [fits]

theorem fits_append : ∀ (ns ms : List Nat) (off : Nat),
    fits off (ns ++ ms) = true ↔ fits off ns = true ∧ fits (offAfter off ns) ms = true
  | [], ms, off => by simp [fits, offAfter]
  | n :: ns, ms, off => by
    have hoff : offAfter (offAfter off [n]) ns = offAfter off (n :: ns) := by
      unfold offAfter; split <;> rfl
    rw [List.cons_append, fits_cons, fits_cons, fits_append ns ms, and_assoc, ← hoff]
    rfl

theorem fits_left {off : Nat} {ns ms : List Nat} (h : ns <+: ms) (hf : fits off ms = true) : fits off ns = true := by
  obtain ⟨t, rfl⟩ := h
  exact ((fits_append ns t off).1 hf).1

theorem fits_reserve_iff : ∀ (ns : List Nat),
    fits pduHeadReserve ns = true ↔ ∀ n ∈ ns, n ≤ pduMaxLength - sizeofPduCommHdr
  | [] => by simp [fits]
  | n :: ns => by
    rw [fits_cons, fits_reserve_iff ns, List.forall_mem_cons]
    refine and_congr ?_ Iff.rfl
    simp only [pduHeadReserve, sizeofPduCommHdr, recvRoom, pduMaxLength]
    omega

theorem fits_mono {off off' : Nat} (h : off ≤ off') : ∀ {ns : List Nat}, fits off' ns = true → fits off ns = true
  | [], _ => rfl
  | n :: ns, hf => by
    rw [fits_cons] at hf ⊢
    exact ⟨by omega, hf.2⟩

/-- The body lengths of the frames a reading took. -/
def bodies (o : Outcome BYTE) : List Nat := o.frames.map fun f => pduFormat.bodyLen f.1

/-- A handler between `OnRecvReady` calls or inside one: the header bytes and body bytes in `_biRecv`, at headroom
`off`, and the received bytes not yet taken. -/
structure Ready (h : TransStreamHandler) (off : Nat) (r c : List BYTE) : Prop where
  recv : h.biRecv.Good
  room : h.biRecv.room = recvRoom
  data : h.biRecv.data = off
  content : h.biRecv.content = r
  buf : h.biRecvBuf.Good
  bufRoom : h.biRecvBuf.room = recvBufRoom
  bufContent : h.biRecvBuf.content = c

/-- The bytes left in `_biRecv`: the rest of the reading, or the header it stopped at. -/
def leftover (o : Outcome BYTE) : List BYTE := if o.bad then pduFormat.hdr o.rest else o.rest

/-- What a handler that has read `s` from headroom `off` became; `fail` when a `recv()` failed after that. -/
structure Decoded (h : TransStreamHandler) (off : Nat) (s : List BYTE) (fail : Bool) (h' : TransStreamHandler) :
    Prop where
  pdus : h'.pdus = h.pdus ++ (pduFormat.parse s).frames.map pduOf
  ignore : h'.bIgnore = ((pduFormat.parse s).bad || fail)
  fit : fits off (bodies (pduFormat.parse s)) = true
  left : ∃ c, Ready h' (offAfter off (bodies (pduFormat.parse s))) (leftover (pduFormat.parse s)) c

/-- The bytes `_biRecv` can hold inside the loop: a beginning of a header, or an accepted header and a beginning of its
body, either of them up to the whole. -/
def Within (r : List BYTE) : Prop :=
  r.length ≤ pduFormat.hdrLen ∨ (pduFormat.valid (pduFormat.hdr r) = true ∧ r.length ≤ pduFormat.frameLen r)

namespace Ready

variable {h : TransStreamHandler} {off : Nat} {r c : List BYTE}

theorem dataSize (hr : Ready h off r c) : h.biRecv.dataSize = r.length := by rw [hr.recv.dataSize_eq, hr.content]

theorem bufSize (hr : Ready h off r c) : h.biRecvBuf.dataSize = c.length := by rw [hr.buf.dataSize_eq, hr.bufContent]

/-- **Moving bytes from the received ones**, when they fit. -/
theorem takeBytes (hr : Ready h off r c) {n : Nat} (hn : n ≤ c.length) (hfit : off + r.length + n ≤ recvRoom) :
    ∃ h', h.takeBytes n = .ok h' ∧ Ready h' off (r ++ c.take n) (c.drop n) ∧ h'.pdus = h.pdus ∧
      h'.bIgnore = h.bIgnore := by
  have hlen : (h.biRecvBuf.content.take n).length = n := by rw [hr.bufContent, List.length_take]; omega
  obtain ⟨b, h1, h2, h3, h4, h5⟩ := BufferItem.putBytes_spec hr.recv (h.biRecvBuf.content.take n)
    (by rw [hr.data, hr.content, hlen, hr.room]; exact hfit)
  obtain ⟨b', k1, k2, k3, k4, k5⟩ := BufferItem.pull_spec hr.buf (show n ≤ h.biRecvBuf.content.length by
    rw [hr.bufContent]; exact hn)
  refine ⟨{ h with biRecv := b, biRecvBuf := b' }, ?_, ⟨h2, h5.trans hr.room, h4.trans hr.data, ?_, k2,
    k5.trans hr.bufRoom, ?_⟩, rfl, rfl⟩
  · unfold TransStreamHandler.takeBytes
    rw [h1]
    simp only [k1]
  · rw [h3, hr.content, hr.bufContent]
  · rw [k3, hr.bufContent]

/-- **A `Put` of bytes that do not fit fails.** -/
theorem takeBytes_overrun (hr : Ready h off r c) {n : Nat} (hn : n ≤ c.length) (hover : recvRoom < off + r.length + n) :
    h.takeBytes n = .error .putEnd := by
  have hlen : (h.biRecvBuf.content.take n).length = n := by rw [hr.bufContent, List.length_take]; omega
  have h1 := BufferItem.putBytes_overrun hr.recv (h.biRecvBuf.content.take n)
    (by rw [hr.data, hr.content, hlen, hr.room]; exact hover)
  unfold TransStreamHandler.takeBytes
  rw [h1]

/-- The body announced is handed to `ProcessPDU`, and `_biRecv` is empty at the reserved headroom. -/
theorem deliver (hr : Ready h off r c) (hl : pduFormat.hdrLen ≤ r.length) :
    ∃ h', h.deliver (hdrAt r) = .ok h' ∧ Ready h' pduHeadReserve [] c ∧
      h'.pdus = h.pdus ++ [TransStreamHandler.hostPdu (hdrAt r)
        ((r.drop pduFormat.hdrLen).take (ntohs (hdrAt r).wBodySize).toNat)] ∧ h'.bIgnore = h.bIgnore := by
  obtain ⟨b, h1, h2, h3, h4, h5⟩ := BufferItem.pull_spec hr.recv
    (show sizeofPduCommHdr ≤ h.biRecv.content.length by rw [hr.content]; exact hl)
  obtain ⟨b', k1, k2, k3, k4, k5⟩ := BufferItem.reset_spec h2.head
    (show pduHeadReserve ≤ b.room by rw [h5, hr.room]; decide)
  refine ⟨{ h with biRecv := b', pdus := h.pdus ++ [TransStreamHandler.hostPdu (hdrAt r)
    (b.content.take (ntohs (hdrAt r).wBodySize).toNat)] }, ?_, ⟨k2, k5.trans (h5.trans hr.room), k4, k3, hr.buf,
    hr.bufRoom, hr.bufContent⟩, ?_, rfl⟩
  · unfold TransStreamHandler.deliver
    rw [h1]
    simp only [k1]
  · show h.pdus ++ [TransStreamHandler.hostPdu (hdrAt r) (b.content.take (ntohs (hdrAt r).wBodySize).toNat)] = _
    rw [h3, hr.content]
    rfl

/-- **A whole frame is handed to `ProcessPDU`.** -/
theorem deliver_frame (hr : Ready h off r c) (hf : pduFormat.IsFrame r) :
    ∃ h', h.deliver (hdrAt r) = .ok h' ∧ Ready h' pduHeadReserve [] c ∧
      h'.pdus = h.pdus ++ [pduOf (pduFormat.hdr r, r.drop pduFormat.hdrLen)] ∧ h'.bIgnore = h.bIgnore := by
  obtain ⟨hl, hv, hlen⟩ := hf
  have hat : hdrAt (pduFormat.hdr r) = hdrAt r := by
    conv => rhs; rw [← List.take_append_drop sizeofPduCommHdr r]
    exact (hdrAt_append _ _ (List.length_take_of_le hl)).symm
  obtain ⟨h', h1, h2, h3, h4⟩ := hr.deliver hl
  refine ⟨h', h1, h2, ?_, h4⟩
  have hb : (r.drop pduFormat.hdrLen).take (ntohs (hdrAt r).wBodySize).toNat = r.drop pduFormat.hdrLen := by
    refine List.take_of_length_le ?_
    have : pduFormat.bodyLen (pduFormat.hdr r) = (ntohs (hdrAt r).wBodySize).toNat := by rw [← hat]; rfl
    unfold Format.frameLen at hlen
    rw [List.length_drop, hlen, this]
    exact Nat.le_of_eq (Nat.add_sub_cancel_left ..)
  rw [h3, hb, pduOf, hat]

end Ready

namespace TransStreamHandler

theorem recvLoop_eq (h : TransStreamHandler) : h.recvLoop =
    if h.biRecv.dataSize < sizeofPduCommHdr then
      if h.biRecvBuf.dataSize = 0 then .ok h
      else match h.takeBytes (min (sizeofPduCommHdr - h.biRecv.dataSize) h.biRecvBuf.dataSize) with
        | .error e => .error e
        | .ok h' => recvLoop h'
    else if (hdrAt h.biRecv.content).dwMagic ≠ htonl pduMagicNum then .ok h.endSession
    else if h.biRecv.dataSize - sizeofPduCommHdr < (ntohs (hdrAt h.biRecv.content).wBodySize).toNat then
      if h.biRecvBuf.dataSize = 0 then .ok h
      else match h.takeBytes (min ((ntohs (hdrAt h.biRecv.content).wBodySize).toNat
          - (h.biRecv.dataSize - sizeofPduCommHdr)) h.biRecvBuf.dataSize) with
        | .error e => .error e
        | .ok h' => recvLoop h'
    else match h.deliver (hdrAt h.biRecv.content) with
      | .error e => .error e
      | .ok h' => recvLoop h' := by
  conv => lhs; rw [recvLoop]
  simp only
  repeat' split
  all_goals simp_all

end TransStreamHandler

theorem hdrAt_hdr {r : List BYTE} (h : pduFormat.hdrLen ≤ r.length) : hdrAt (pduFormat.hdr r) = hdrAt r := by
  conv => rhs; rw [← List.take_append_drop sizeofPduCommHdr r]
  exact (hdrAt_append _ _ (List.length_take_of_le h)).symm

theorem valid_iff {r : List BYTE} (h : pduFormat.hdrLen ≤ r.length) :
    pduFormat.valid (pduFormat.hdr r) = true ↔ (hdrAt r).dwMagic = htonl pduMagicNum := by
  show ((hdrAt (pduFormat.hdr r)).dwMagic == htonl pduMagicNum) = true ↔ _
  rw [hdrAt_hdr h, beq_iff_eq]

theorem bodyLen_eq {r : List BYTE} (h : pduFormat.hdrLen ≤ r.length) :
    pduFormat.bodyLen (pduFormat.hdr r) = (ntohs (hdrAt r).wBodySize).toNat := by
  show (ntohs (hdrAt (pduFormat.hdr r)).wBodySize).toNat = _
  rw [hdrAt_hdr h]

/-- **A loop that stops without a frame** has read what it holds. -/
theorem Decoded.stop {h : TransStreamHandler} {off : Nat} {r c : List BYTE} (hr : Ready h off r c)
    (hi : h.bIgnore = false)
    (hinc : pduFormat.Incomplete r) : Decoded h off r false h where
  pdus := by rw [hinc]; simp
  ignore := by rw [hinc, hi]; rfl
  fit := by rw [hinc]; rfl
  left := by rw [hinc]; exact ⟨c, hr⟩

theorem Decoded.endSession {h : TransStreamHandler} {off : Nat} {r c : List BYTE} (hr : Ready h off r c)
    (hl : r.length = pduFormat.hdrLen) (hv : pduFormat.valid (pduFormat.hdr r) = false) :
    Decoded h off (r ++ c) false h.endSession := by
  have hp : pduFormat.parse (r ++ c) = ⟨[], r ++ c, true⟩ :=
    Format.parse_bad (by rw [List.length_append]; omega) (by rw [Format.hdr_append c (by omega), hv])
  have hh : pduFormat.hdr (r ++ c) = r := by
    rw [Format.hdr_append c (by omega)]
    exact List.take_of_length_le (by omega)
  have hleft : leftover ⟨[], r ++ c, true⟩ = r := hh
  exact { pdus := by rw [hp]; simp [TransStreamHandler.endSession]
          ignore := by rw [hp]; rfl
          fit := by rw [hp]; rfl
          left := by
            rw [hp, hleft]
            exact ⟨c, hr.recv, hr.room, hr.data, hr.content, hr.buf, hr.bufRoom, hr.bufContent⟩ }

theorem offAfter_append (off : Nat) (ns ms : List Nat) : offAfter off (ns ++ ms) = offAfter (offAfter off ns) ms := by
  cases ns with
  | nil => rfl
  | cons n ns => cases ms <;> rfl

/-- **Reading goes on after the frames of a first piece.** -/
theorem Decoded.trans {h h₁ h' : TransStreamHandler} {off : Nat} {s s₁ s₂ : List BYTE} {fail : Bool}
    {fs : List (List BYTE × List BYTE)}
    (hparse : pduFormat.parse s = ⟨fs ++ (pduFormat.parse s₂).frames, (pduFormat.parse s₂).rest,
      (pduFormat.parse s₂).bad⟩)
    (hfs : fs = (pduFormat.parse s₁).frames) (hp : h₁.pdus = h.pdus ++ fs.map pduOf)
    (hfit : fits off (bodies (pduFormat.parse s₁)) = true)
    (hd : Decoded h₁ (offAfter off (bodies (pduFormat.parse s₁))) s₂ fail h') : Decoded h off s fail h' := by
  have hb : bodies (pduFormat.parse s) = bodies (pduFormat.parse s₁) ++ bodies (pduFormat.parse s₂) := by
    unfold bodies
    rw [hparse, hfs, List.map_append]
  exact { pdus := by rw [hd.pdus, hp, hparse, List.map_append, List.append_assoc]
          ignore := by rw [hd.ignore, hparse]
          fit := by
            rw [hb, fits_append]
            exact ⟨hfit, hd.fit⟩
          left := by
            rw [hb, offAfter_append]
            have : leftover (pduFormat.parse s) = leftover (pduFormat.parse s₂) := by unfold leftover; rw [hparse]
            rw [this]
            exact hd.left }

/-- **Reading goes on after a delivered frame.** -/
theorem Decoded.frame {h h₁ h' : TransStreamHandler} {off : Nat} {w s : List BYTE} (hw : pduFormat.IsFrame w)
    (hfit : off + w.length ≤ recvRoom) (hp : h₁.pdus = h.pdus ++ [pduOf (pduFormat.hdr w, w.drop pduFormat.hdrLen)])
    (hd : Decoded h₁ pduHeadReserve s false h') : Decoded h off (w ++ s) false h' := by
  have h1 := Format.parse_isFrame hw []
  rw [List.append_nil, Format.parse_nil] at h1
  have hb : bodies (pduFormat.parse w) = [pduFormat.bodyLen (pduFormat.hdr w)] := by unfold bodies; rw [h1]; rfl
  have hlen : w.length = sizeofPduCommHdr + pduFormat.bodyLen (pduFormat.hdr w) := hw.2.2
  have hparse : pduFormat.parse (w ++ s) = ⟨[(pduFormat.hdr w, w.drop pduFormat.hdrLen)] ++ (pduFormat.parse s).frames,
      (pduFormat.parse s).rest, (pduFormat.parse s).bad⟩ := Format.parse_isFrame hw s
  have hfs : [(pduFormat.hdr w, w.drop pduFormat.hdrLen)] = (pduFormat.parse w).frames := by rw [h1]
  refine Decoded.trans hparse hfs hp ?_ ?_
  · rw [hb, fits_cons]
    exact ⟨by omega, rfl⟩
  · rw [hb]
    exact hd

/-- **The loop reads**: either it decodes what it holds and what was received, or a body announced there does not fit
and the `Put` for it fails. -/
theorem recvLoop_spec (h : TransStreamHandler) (off : Nat) (r c : List BYTE) (hr : Ready h off r c)
    (hw : Within r) (hi : h.bIgnore = false) (ho : off + pduFormat.hdrLen ≤ recvRoom) :
    (∃ h', h.recvLoop = .ok h' ∧ Decoded h off (r ++ c) false h') ∨
      (h.recvLoop = .error .putEnd ∧ fits off (pduFormat.announced (r ++ c)) = false) := by
  have hH : pduFormat.hdrLen = sizeofPduCommHdr := rfl
  have hH0 := pduFormat.hdrPos
  rw [TransStreamHandler.recvLoop_eq, hr.dataSize, hr.bufSize, hr.content]
  by_cases hlt : r.length < sizeofPduCommHdr
  · rw [if_pos hlt]
    by_cases hc : c.length = 0
    · rw [if_pos hc]
      obtain rfl := List.length_eq_zero_iff.1 hc
      rw [List.append_nil]
      exact .inl ⟨h, rfl, Decoded.stop hr hi (Format.incomplete_of_lt hlt)⟩
    · rw [if_neg hc]
      obtain ⟨h₁, h1, h2, h3, h4⟩ := hr.takeBytes (Nat.min_le_right (sizeofPduCommHdr - r.length) c.length) (by omega)
      have hlen : (r ++ c.take (min (sizeofPduCommHdr - r.length) c.length)).length ≤ pduFormat.hdrLen := by
        rw [List.length_append, List.length_take]; omega
      have ih := recvLoop_spec h₁ off _ _ h2 (.inl hlen) (h4.trans hi) ho
      rw [List.append_assoc, List.take_append_drop] at ih
      rw [h1]
      rcases ih with ⟨h', e, hd⟩ | he
      · exact .inl ⟨h', e, { hd with pdus := by rw [hd.pdus, h3] }⟩
      · exact .inr he
  · rw [if_neg hlt]
    have hge : pduFormat.hdrLen ≤ r.length := by omega
    by_cases hm : (hdrAt r).dwMagic = htonl pduMagicNum
    · rw [if_neg (by simpa using hm), ← bodyLen_eq hge]
      have hv := (valid_iff hge).2 hm
      have hfl : pduFormat.frameLen r = sizeofPduCommHdr + pduFormat.bodyLen (pduFormat.hdr r) := rfl
      have hle : r.length ≤ pduFormat.frameLen r := by
        rcases hw with hw | hw
        · unfold Format.frameLen; omega
        · exact hw.2
      by_cases hp : r.length - sizeofPduCommHdr < pduFormat.bodyLen (pduFormat.hdr r)
      · rw [if_pos hp]
        by_cases hc : c.length = 0
        · rw [if_pos hc]
          obtain rfl := List.length_eq_zero_iff.1 hc
          rw [List.append_nil]
          exact .inl ⟨h, rfl, Decoded.stop hr hi (Format.incomplete_iff.2 (.inr ⟨hv, by omega⟩))⟩
        · rw [if_neg hc]
          by_cases hfit : off + r.length +
              min (pduFormat.bodyLen (pduFormat.hdr r) - (r.length - sizeofPduCommHdr)) c.length ≤ recvRoom
          · obtain ⟨h₁, h1, h2, h3, h4⟩ := hr.takeBytes (Nat.min_le_right _ c.length) hfit
            generalize hn : min (pduFormat.bodyLen (pduFormat.hdr r) - (r.length - sizeofPduCommHdr)) c.length = n at *
            have hw' : Within (r ++ c.take n) := by
              refine .inr ⟨by rw [Format.hdr_append _ hge, hv], ?_⟩
              rw [Format.frameLen_append _ hge, List.length_append, List.length_take]
              omega
            have ih := recvLoop_spec h₁ off _ _ h2 hw' (h4.trans hi) ho
            rw [List.append_assoc, List.take_append_drop] at ih
            rw [h1]
            rcases ih with ⟨h', e, hd⟩ | he
            · exact .inl ⟨h', e, { hd with pdus := by rw [hd.pdus, h3] }⟩
            · exact .inr he
          · rw [hr.takeBytes_overrun (Nat.min_le_right _ c.length) (by omega)]
            -- the body does not fit whole, since a part of it does not
            obtain ⟨ns, hns⟩ := Format.announced_head (F := pduFormat) (s := r ++ c)
              (by rw [List.length_append]; omega) (by rw [Format.hdr_append c hge, hv])
            refine .inr ⟨rfl, ?_⟩
            rw [hns, Format.hdr_append c hge, ← Bool.not_eq_true, fits_cons]
            omega
      · rw [if_neg hp]
        have hf : pduFormat.IsFrame r := ⟨hge, hv, by omega⟩
        obtain ⟨h₁, h1, h2, h3, h4⟩ := hr.deliver_frame hf
        have hbound : off + r.length ≤ recvRoom := by
          have h5 := hr.recv.bound
          have h6 := hr.recv.tail
          have h7 := hr.room
          rw [hr.data, ← hr.recv.length_content, hr.content] at h6
          unfold BufferItem.room at h7
          omega
        have ih := recvLoop_spec h₁ pduHeadReserve [] c h2 (.inl (Nat.zero_le _)) (h4.trans hi) (by decide)
        rw [h1]
        rcases ih with ⟨h', e, hd⟩ | ⟨e, hn⟩
        · exact .inl ⟨h', e, hd.frame hf hbound h3⟩
        · refine .inr ⟨e, ?_⟩
          have hv' : pduFormat.valid (pduFormat.hdr (r ++ c)) = true := by rw [Format.hdr_append c hge, hv]
          have hl' := Format.frameLen_append (F := pduFormat) c hge
          rw [Format.announced_frame hv' (by rw [hl', List.length_append]; omega), hl', ← hf.2.2, List.drop_left,
            ← Bool.not_eq_true, fits_cons]
          intro hc
          rw [List.nil_append, hc.2] at hn
          cases hn
    · rw [if_pos hm]
      have hv : pduFormat.valid (pduFormat.hdr r) = false := by
        rw [← Bool.not_eq_true, valid_iff hge]
        exact hm
      have hl : r.length = pduFormat.hdrLen := by
        rcases hw with hw | hw
        · omega
        · rw [hv] at hw; cases hw.1
      exact .inl ⟨_, rfl, Decoded.endSession hr hl hv⟩
termination_by (c.length, r.length)
decreasing_by
  · apply Prod.Lex.left
    rw [List.length_drop]
    omega
  · apply Prod.Lex.left
    rw [List.length_drop]
    omega
  · apply Prod.Lex.right
    have := pduFormat.hdrPos
    simp only [List.length_nil]
    omega

/-! ## `OnRecvReady` and a session -/

/-- The bytes the calls of a session receive: those up to a `recv()` that fails. -/
def received : List RecvRes → List BYTE
  | .bytes (b :: bs) :: rs => (b :: bs) ++ received rs
  | _ => []

/-- Some `recv()` of the session fails. -/
def fails : List RecvRes → Bool
  | [] => false
  | .bytes (_ :: _) :: rs => fails rs
  | _ => true

/-- A `recv()` returns at most the room it was given. -/
def RecvRes.Fits : RecvRes → Prop
  | .bytes bs => bs.length ≤ recvBufRoom
  | .failed _ => True

instance : DecidablePred RecvRes.Fits
  | .bytes bs => inferInstanceAs (Decidable (bs.length ≤ recvBufRoom))
  | .failed _ => inferInstanceAs (Decidable True)

/-- **A call that receives nothing ends the session.** -/
theorem onRecvReady_failed {h : TransStreamHandler} {off : Nat} {r c : List BYTE} (hr : Ready h off r c) {x : RecvRes}
    (hx : x = .bytes [] ∨ ∃ e, x = .failed e) :
    ∃ h', h.onRecvReady x = .ok h' ∧ h'.pdus = h.pdus ∧ h'.bIgnore = true ∧ ∃ c', Ready h' off r c' := by
  obtain ⟨b, h1, h2, h3, h4, h5⟩ := BufferItem.reset_spec hr.buf.head (Nat.zero_le h.biRecvBuf.room)
  refine ⟨{ h with biRecvBuf := b }.endSession, ?_, rfl, rfl, [], hr.recv, hr.room, hr.data, hr.content, h2,
    h5.trans hr.bufRoom, h3⟩
  unfold TransStreamHandler.onRecvReady
  rw [h1]
  rcases hx with rfl | ⟨e, rfl⟩
  · rfl
  · simp [recv, errorSuccess]

/-- A call that receives bytes runs the loop over them. -/
theorem onRecvReady_bytes {h : TransStreamHandler} {off : Nat} {r c : List BYTE} (hr : Ready h off r c) {bs : List BYTE}
    (hne : bs ≠ []) (hbs : bs.length ≤ recvBufRoom) :
    ∃ g : TransStreamHandler, h.onRecvReady (.bytes bs) = g.recvLoop ∧ Ready g off r bs ∧ g.pdus = h.pdus ∧
      g.bIgnore = h.bIgnore := by
  obtain ⟨b, h1, h2, h3, h4, h5⟩ := BufferItem.reset_spec hr.buf.head (Nat.zero_le h.biRecvBuf.room)
  obtain ⟨b', k1, k2, k3, k4, k5⟩ := BufferItem.putBytes_spec h2 bs (by rw [h4, h3, h5, hr.bufRoom]; simpa using hbs)
  refine ⟨{ h with biRecvBuf := b' }, ?_,
    ⟨hr.recv, hr.room, hr.data, hr.content, k2, k5.trans (h5.trans hr.bufRoom), by rw [k3, h3]; rfl⟩, rfl, rfl⟩
  unfold TransStreamHandler.onRecvReady recv
  rw [h1]
  simp [k1, hne]

/-- **A call that receives bytes** decodes them after what `_biRecv` holds. -/
theorem onRecvReady_spec {h : TransStreamHandler} {off : Nat} {r c : List BYTE} (hr : Ready h off r c)
    (hinc : pduFormat.Incomplete r) (hi : h.bIgnore = false) (ho : off + pduFormat.hdrLen ≤ recvRoom) {bs : List BYTE}
    (hne : bs ≠ []) (hbs : bs.length ≤ recvBufRoom) :
    (∃ h', h.onRecvReady (.bytes bs) = .ok h' ∧ Decoded h off (r ++ bs) false h') ∨
      (h.onRecvReady (.bytes bs) = .error .putEnd ∧ fits off (pduFormat.announced (r ++ bs)) = false) := by
  obtain ⟨g, heq, hready, hp, hig⟩ := onRecvReady_bytes hr hne hbs
  have hw : Within r := by
    rcases Format.incomplete_iff.1 hinc with h | ⟨hv, hp⟩
    · exact .inl (Nat.le_of_lt h)
    · exact .inr ⟨hv, Nat.le_of_lt hp⟩
  rw [heq]
  rcases recvLoop_spec g off r bs hready hw (hig.trans hi) ho with ⟨h', e, hd⟩ | he
  · exact .inl ⟨h', e, by rw [hd.pdus, hp], hd.ignore, hd.fit, hd.left⟩
  · exact .inr he

theorem offAfter_le {off : Nat} (ho : off + pduFormat.hdrLen ≤ recvRoom) (ns : List Nat) :
    offAfter off ns + pduFormat.hdrLen ≤ recvRoom := by
  unfold offAfter
  split
  · exact ho
  · decide

/-- **A session decodes the bytes it receives after those `_biRecv` held**, and ends when a `recv()` fails; or a body
announced there does not fit. -/
theorem session_spec : ∀ (rs : List RecvRes) (h : TransStreamHandler) (off : Nat) (r c : List BYTE), Ready h off r c →
    pduFormat.Incomplete r → h.bIgnore = false → off + pduFormat.hdrLen ≤ recvRoom → (∀ x ∈ rs, x.Fits) →
    (∃ h', h.session rs = .ok h' ∧ Decoded h off (r ++ received rs) (fails rs) h') ∨
      (h.session rs = .error .putEnd ∧ fits off (pduFormat.announced (r ++ received rs)) = false)
  | [], h, off, r, c, hr, hinc, hi, _, _ => by
    refine .inl ⟨h, rfl, ?_⟩
    show Decoded h off (r ++ []) false h
    rw [List.append_nil]
    exact Decoded.stop hr hi hinc
  | x :: rs, h, off, r, c, hr, hinc, hi, ho, hx => by
    have hstep : h.session (x :: rs) = match h.onRecvReady x with
        | .error e => .error e
        | .ok h' => h'.session rs := by
      rw [TransStreamHandler.session, hi]
      rfl
    have hstop : ∀ h₁ : TransStreamHandler, h₁.bIgnore = true → h₁.session rs = .ok h₁ := by
      intro h₁ h1
      cases rs with
      | nil => rfl
      | cons y ys => rw [TransStreamHandler.session, h1]; rfl
    by_cases hfail : x = .bytes [] ∨ ∃ e, x = .failed e
    · obtain ⟨h₁, h1, h2, h3, c', h4⟩ := onRecvReady_failed hr hfail
      have hrec : received (x :: rs) = [] ∧ fails (x :: rs) = true := by
        rcases hfail with rfl | ⟨e, rfl⟩ <;> exact ⟨rfl, rfl⟩
      rw [hrec.1, hrec.2, List.append_nil, hstep, h1]
      refine .inl ⟨h₁, hstop h₁ h3, ?_⟩
      exact { pdus := by rw [h2, hinc]; simp
              ignore := by rw [h3, hinc]; rfl
              fit := by rw [hinc]; rfl
              left := by rw [hinc]; exact ⟨c', h4⟩ }
    · obtain ⟨b, bs, rfl⟩ : ∃ b bs, x = .bytes (b :: bs) := by
        cases x with
        | failed e => exact absurd (.inr ⟨e, rfl⟩) hfail
        | bytes l => cases l with
          | nil => exact absurd (.inl rfl) hfail
          | cons b bs => exact ⟨b, bs, rfl⟩
      have hrec : received (.bytes (b :: bs) :: rs) = (b :: bs) ++ received rs := rfl
      have hfl : fails (.bytes (b :: bs) :: rs) = fails rs := rfl
      rw [hrec, hfl, hstep]
      generalize hl : b :: bs = l at *
      rcases onRecvReady_spec hr hinc hi ho (by rw [← hl]; exact List.cons_ne_nil b bs) (hx _ List.mem_cons_self) with
        ⟨h₁, h1, hd⟩ | ⟨h1, hn⟩
      · rw [h1, ← List.append_assoc]
        cases hb : (pduFormat.parse (r ++ l)).bad with
        | true =>
          have hig : h₁.bIgnore = true := by rw [hd.ignore, hb]; rfl
          have hp := Format.parse_append_bad pduFormat (r ++ l) (received rs) hb
          have hbad := Format.bad_rest pduFormat (r ++ l) hb
          have hfb : bodies (pduFormat.parse (r ++ l ++ received rs)) = bodies (pduFormat.parse (r ++ l)) := by
            unfold bodies; rw [hp]
          have hlo : leftover (pduFormat.parse (r ++ l ++ received rs)) = leftover (pduFormat.parse (r ++ l)) := by
            unfold leftover
            rw [hp, hb]
            exact Format.hdr_append _ hbad.1
          refine .inl ⟨h₁, hstop h₁ hig, ?_⟩
          exact { pdus := by rw [hd.pdus, hp]
                  ignore := by rw [hig, hp]; rfl
                  fit := by rw [hfb]; exact hd.fit
                  left := by rw [hfb, hlo]; exact hd.left }
        | false =>
          obtain ⟨c', h2⟩ := hd.left
          have hlo : leftover (pduFormat.parse (r ++ l)) = (pduFormat.parse (r ++ l)).rest := by
            unfold leftover; rw [hb]; rfl
          rw [hlo] at h2
          have hp := Format.parse_append pduFormat (r ++ l) (received rs) hb
          rcases session_spec rs h₁ _ _ c' h2 (Format.incomplete_rest pduFormat _ hb) (by rw [hd.ignore, hb]; rfl)
            (offAfter_le ho _) (fun y hy => hx y (List.mem_cons_of_mem _ hy)) with ⟨h', e, hd'⟩ | ⟨e, hn⟩
          · exact .inl ⟨h', e, Decoded.trans hp rfl hd.pdus hd.fit hd'⟩
          · refine .inr ⟨e, ?_⟩
            rw [Format.announced_append pduFormat _ _ hb, ← Bool.not_eq_true, fits_append]
            intro hc
            rw [← Bool.not_eq_true] at hn
            exact hn hc.2
      · rw [h1, ← List.append_assoc]
        refine .inr ⟨rfl, ?_⟩
        rw [← Bool.not_eq_true] at hn ⊢
        exact fun hc => hn (fits_left (Format.announced_prefix pduFormat _ _) hc)

/-! ## A fresh handler -/

/-- The headroom of `_biRecv` when the first session of an object starts. -/
def startOff : HandlerClass → Nat
  | .msgServerHandler => pduHeadReserve
  | .myMsgClient => 0

/-- A newly constructed object, initialised and started. -/
def started (cls : HandlerClass) (fresh : Nat → BYTE) : Except Assertion TransStreamHandler :=
  match TransStreamHandler.new.init fresh with
  | .error e => .error e
  | .ok h => h.start cls

theorem init_spec {h : TransStreamHandler} (fresh : Nat → BYTE) (h1 : h.biRecv.room ≠ 0 → h.biRecv.head = true)
    (h2 : h.biRecvBuf.room ≠ 0 → h.biRecvBuf.head = true) (h3 : h.biRecv.room ≤ recvRoom)
    (h4 : h.biRecvBuf.room ≤ recvBufRoom) :
    ∃ h', h.init fresh = .ok h' ∧ Ready h' 0 [] [] ∧ h'.bSessionEnd = h.bSessionEnd := by
  obtain ⟨b, a1, a2, a3, a4, a5⟩ := BufferItem.alloc_spec (show 0 < recvRoom by decide) h1 fresh
  obtain ⟨c, b1, b2, b3, b4, b5⟩ := BufferItem.alloc_spec (show 0 < recvBufRoom by decide) h2 fresh
  refine ⟨{ h with biRecv := b, biRecvBuf := c }, ?_, ⟨a2, by rw [a5]; omega, a4, a3, b2, by rw [b5]; omega, b3⟩, rfl⟩
  unfold TransStreamHandler.init
  rw [show pduMaxLength + pduHeadReserve = recvRoom from rfl,
    show pduMaxLength * 2 + pduHeadReserve = recvBufRoom from rfl, a1]
  simp only [b1]

theorem start_spec {h : TransStreamHandler} {off : Nat} {r c : List BYTE} (hr : Ready h off r c) (cls : HandlerClass) :
    ∃ h', h.start cls = .ok h' ∧ h'.bIgnore = false ∧ h'.pdus = [] ∧
      match cls with
      | .msgServerHandler => Ready h' pduHeadReserve [] c
      | .myMsgClient => Ready h' off r c := by
  cases cls with
  | msgServerHandler =>
    obtain ⟨b, h1, h2, h3, h4, h5⟩ := BufferItem.reset_spec hr.recv.head
      (show pduHeadReserve ≤ h.biRecv.room by rw [hr.room]; decide)
    refine ⟨{ h with biRecv := b, bIgnore := false, pdus := [] }, ?_, rfl, rfl, h2, h5.trans hr.room, h4, h3, hr.buf,
      hr.bufRoom, hr.bufContent⟩
    unfold TransStreamHandler.start TransStreamHandler.onStarted
    rw [h1]
  | myMsgClient =>
    exact ⟨{ h with bIgnore := false, pdus := [] }, rfl, rfl, rfl, hr.recv, hr.room, hr.data, hr.content, hr.buf,
      hr.bufRoom, hr.bufContent⟩

/-- **A freshly started handler** holds nothing. -/
theorem started_spec (cls : HandlerClass) (fresh : Nat → BYTE) :
    ∃ h, started cls fresh = .ok h ∧ Ready h (startOff cls) [] [] ∧ h.bIgnore = false ∧ h.pdus = [] := by
  obtain ⟨h, h1, h2, -⟩ := init_spec (h := .new) fresh (by decide) (by decide) (by decide) (by decide)
  obtain ⟨h', k1, k2, k3, k4⟩ := start_spec h2 cls
  refine ⟨h', ?_, ?_, k2, k3⟩
  · unfold started
    rw [h1]
    exact k1
  · cases cls <;> exact k4

end DevMgr
