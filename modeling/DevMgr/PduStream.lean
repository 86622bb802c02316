import DevMgr.Decoder
/-!
# PduStream — the PDU codec end to end

What `SendPDU` and the partial sends put on the wire is one frame for each PDU, so a freshly started handler reads it
back however it is cut.
-/
namespace DevMgr

open Framing

/-- A call of `SendPDU`, with what `select()` and then its `send()` calls return. -/
structure SendCall where
  bCode : BYTE
  bReq : Bool
  bErr : Bool
  dwParam : DWORD
  item : BufferItem
  poll : Int
  rets : List Int

/-- A body of at most `PDU_MAX_LENGTH - 12` bytes with room for the header in front of it, and a socket that takes the
PDU in parts. -/
structure SendCall.Sendable (x : SendCall) : Prop where
  good : x.item.Good
  headroom : sizeofPduCommHdr ≤ x.item.headSize
  size : x.item.content.length ≤ pduMaxLength - sizeofPduCommHdr
  poll : 0 < x.poll
  parts : ∀ r ∈ x.rets, 0 < r
  whole : x.rets.sum = sizeofPduCommHdr + x.item.content.length

/-- The bytes a call puts on the wire. -/
def SendCall.transmit (errno : Nat) (x : SendCall) : Except Assertion (List BYTE) :=
  match TransStreamHandler.sendPDU x.bCode x.bReq x.bErr x.dwParam x.item with
  | .error e => .error e
  | .ok b => match transInstSend errno x.poll b x.rets with
    | .error e => .error e
    | .ok o => .ok o.wire

def transmitAll (errno : Nat) : List SendCall → Except Assertion (List BYTE)
  | [] => .ok []
  | x :: xs => match x.transmit errno with
    | .error e => .error e
    | .ok w => match transmitAll errno xs with
      | .error e => .error e
      | .ok ws => .ok (w ++ ws)

/-- `ProcessPDU` was given what `SendPDU` was. -/
def SameAsSent (p : Pdu) (x : SendCall) : Prop :=
  p.hdr.bCode = x.bCode ∧ p.hdr.bReq = x.bReq ∧ p.hdr.bErr = x.bErr ∧ p.hdr.dwParam = x.dwParam ∧
    p.hdr.wBodySize.toNat = x.item.content.length ∧ p.body = x.item.content

/-- **`SendPDU` puts a header in front of the body**; the reserved bits of its flag byte are those of the byte it
overwrites. -/
theorem sendPDU_spec {b : BufferItem} (h : b.Good) (hr : sizeofPduCommHdr ≤ b.headSize) (c : BYTE) (rq er : Bool)
    (p : DWORD) :
    ∃ b' old, TransStreamHandler.sendPDU c rq er p b = .ok b' ∧ b'.Good ∧
      b'.content = hdrBytes (htonl pduMagicNum) (htons (UInt16.ofNat b.content.length)) c rq er
        (htonl p) old ++ b.content ∧ b'.room = b.room := by
  have hpush : b.push sizeofPduCommHdr
      = .ok ({ b with data := b.data - sizeofPduCommHdr, dataLen := b.dataLen + sizeofPduCommHdr },
          b.data - sizeofPduCommHdr) := by
    unfold BufferItem.push
    rw [if_neg (by simp [h.head]), if_pos (show sizeofPduCommHdr ≤ b.data from hr)]
  obtain ⟨old, hold⟩ : ∃ old, old = b.mem.getD (b.data - sizeofPduCommHdr + 7) 0 := ⟨_, rfl⟩
  obtain ⟨b', q, h1, h2, h3, -, h4⟩ := BufferItem.push_write_spec h
    (hdrBytes (htonl pduMagicNum) (htons (UInt16.ofNat b.content.length)) c rq er (htonl p) old) hr
  rw [length_hdrBytes, hpush] at h1
  simp only [Except.ok.injEq, Prod.mk.injEq] at h1
  obtain ⟨rfl, rfl⟩ := h1
  refine ⟨_, old, ?_, h2, h3, h4⟩
  unfold TransStreamHandler.sendPDU
  rw [hpush]
  simp only [BufferItem.dataSize, Nat.add_sub_cancel, ← hold, h.length_content]

theorem frame_of_hdrBytes (body : List BYTE) (hb : body.length < 65536) (c : BYTE) (rq er : Bool) (p : DWORD)
    (old : BYTE) :
    let w := hdrBytes (htonl pduMagicNum) (htons (UInt16.ofNat body.length)) c rq er (htonl p) old ++ body
    pduFormat.IsFrame w ∧ pduOf (pduFormat.hdr w, w.drop pduFormat.hdrLen) =
      ⟨⟨htonl pduMagicNum, UInt16.ofNat body.length, c, rq, er, old.toNat / 4, p⟩, body⟩ := by
  intro w
  have hat : hdrAt w = ⟨htonl pduMagicNum, htons (UInt16.ofNat body.length), c, rq, er, old.toNat / 4, htonl p⟩ :=
    hdrAt_hdrBytes _ _ _ _ _ _ _ _
  have hl : w.length = sizeofPduCommHdr + body.length := List.length_append
  have hge : pduFormat.hdrLen ≤ w.length := by rw [hl]; exact Nat.le_add_right _ _
  have hsz : (UInt16.ofNat body.length).toNat = body.length := by
    rw [UInt16.toNat_ofNat']
    exact Nat.mod_eq_of_lt hb
  refine ⟨⟨hge, (valid_iff hge).2 (by rw [hat]), ?_⟩, ?_⟩
  · unfold Format.frameLen
    rw [bodyLen_eq hge, hat, hl]
    simp only [ntohs_htons, hsz]
    rfl
  · have hd : w.drop pduFormat.hdrLen = body := List.drop_left' rfl
    unfold pduOf TransStreamHandler.hostPdu
    simp only [hd, hdrAt_hdr hge, hat, ntohs_htons, ntohl_htonl]

/-- **A transmitted PDU is one frame** that reads back as what was sent. -/
theorem transmit_spec {x : SendCall} (hx : x.Sendable) (errno : Nat) :
    ∃ w, x.transmit errno = .ok w ∧ pduFormat.IsFrame w ∧
      SameAsSent (pduOf (pduFormat.hdr w, w.drop pduFormat.hdrLen)) x := by
  have hsize : x.item.content.length < 65536 := Nat.lt_of_le_of_lt hx.size (by decide)
  obtain ⟨b, old, h1, h2, h3, -⟩ := sendPDU_spec hx.good hx.headroom x.bCode x.bReq x.bErr x.dwParam
  obtain ⟨hf, hp⟩ := frame_of_hdrBytes x.item.content hsize x.bCode x.bReq x.bErr x.dwParam old
  obtain ⟨o, k1, k2, -, -⟩ := send_spec errno x.rets h2 hx.parts (by
    rw [hx.whole, h3, List.length_append, length_hdrBytes]
    rfl)
  have hpoll : pollSend errno x.poll = errorSuccess := by
    have := hx.poll
    unfold pollSend
    rw [if_neg (by omega), if_neg (by omega)]
  refine ⟨_, ?_, hf, ?_⟩
  · unfold SendCall.transmit transInstSend
    rw [h1]
    simp only [hpoll]
    rw [if_neg (by decide), if_neg (by decide), k1]
    simp only [k2, h3]
  · rw [hp]
    refine ⟨rfl, rfl, rfl, rfl, ?_, rfl⟩
    rw [UInt16.toNat_ofNat']
    exact Nat.mod_eq_of_lt hsize

theorem transmitAll_spec (errno : Nat) : ∀ (xs : List SendCall), (∀ x ∈ xs, x.Sendable) →
    ∃ ws : List (List BYTE), transmitAll errno xs = .ok ws.flatten ∧ (∀ w ∈ ws, pduFormat.IsFrame w) ∧
      List.Forall₂ SameAsSent (ws.map fun w => pduOf (pduFormat.hdr w, w.drop pduFormat.hdrLen)) xs ∧
      ∀ w ∈ ws, pduFormat.bodyLen (pduFormat.hdr w) ≤ pduMaxLength - sizeofPduCommHdr
  | [], _ => ⟨[], rfl, by simp, .nil, by simp⟩
  | x :: xs, h => by
    have hx := h x List.mem_cons_self
    obtain ⟨w, h1, h2, h3⟩ := transmit_spec hx errno
    obtain ⟨ws, k1, k2, k3, k4⟩ := transmitAll_spec errno xs fun y hy => h y (List.mem_cons_of_mem x hy)
    refine ⟨w :: ws, ?_, ?_, .cons h3 k3, ?_⟩
    · rw [transmitAll, h1]
      simp only [k1, List.flatten_cons]
    · exact List.forall_mem_cons.2 ⟨h2, k2⟩
    · refine List.forall_mem_cons.2 ⟨?_, k4⟩
      have hs : pduFormat.bodyLen (pduFormat.hdr w) = x.item.content.length := h3.2.2.2.2.1
      rw [hs]
      exact hx.size

theorem received_chunks : ∀ (cs : List (List BYTE)), (∀ c ∈ cs, 1 ≤ c.length ∧ c.length ≤ recvBufRoom) →
    received (cs.map .bytes) = cs.flatten ∧ fails (cs.map .bytes) = false ∧ ∀ x ∈ cs.map RecvRes.bytes, x.Fits
  | [], _ => ⟨rfl, rfl, by simp⟩
  | [] :: _, h => absurd (h [] List.mem_cons_self).1 (by decide)
  | (b :: bs) :: cs, h => by
    obtain ⟨h1, h2, h3⟩ := received_chunks cs fun c hc => h c (List.mem_cons_of_mem _ hc)
    refine ⟨?_, h2, ?_⟩
    · rw [List.map_cons, received, h1, List.flatten_cons]
    · exact List.forall_mem_cons.2 ⟨(h _ List.mem_cons_self).2, h3⟩

theorem announced_flatten {ws : List (List BYTE)} (hf : ∀ w ∈ ws, pduFormat.IsFrame w) :
    pduFormat.announced ws.flatten = ws.map fun w => pduFormat.bodyLen (pduFormat.hdr w) := by
  unfold Format.announced
  rw [Format.parse_flatten ws hf]
  simp only [List.map_map, List.length_nil]
  rw [if_neg (by rintro ⟨h, -⟩; exact absurd h (by decide)), List.append_nil]
  rfl

/-- A freshly started handler reads whole PDUs of at most `PDU_MAX_LENGTH` bytes as they are, and holds nothing at the
end. -/
theorem session_frames (cls : HandlerClass) (fresh : Nat → BYTE) {ws : List (List BYTE)}
    (hf : ∀ w ∈ ws, pduFormat.IsFrame w)
    (hle : ∀ w ∈ ws, pduFormat.bodyLen (pduFormat.hdr w) ≤ pduMaxLength - sizeofPduCommHdr)
    {chunks : List (List BYTE)} (hc : chunks.flatten = ws.flatten)
    (hlen : ∀ c ∈ chunks, 1 ≤ c.length ∧ c.length ≤ recvBufRoom) :
    ∃ h h', started cls fresh = .ok h ∧ h.session (chunks.map .bytes) = .ok h' ∧
      h'.pdus = ws.map (fun w => pduOf (pduFormat.hdr w, w.drop pduFormat.hdrLen)) ∧ h'.bIgnore = false ∧
      h'.biRecv.content = [] := by
  obtain ⟨h, k1, k2, k3, k4⟩ := started_spec cls fresh
  obtain ⟨r1, r2, r3⟩ := received_chunks chunks hlen
  have hfits : fits (startOff cls) (pduFormat.announced ws.flatten) = true := by
    refine fits_mono (show startOff cls ≤ pduHeadReserve by cases cls <;> decide) ?_
    rw [announced_flatten hf, fits_reserve_iff]
    intro n hn
    obtain ⟨w, hw, rfl⟩ := List.mem_map.1 hn
    exact hle w hw
  have hparse := Format.parse_flatten ws hf
  rcases session_spec (chunks.map .bytes) h _ [] [] k2 Format.parse_nil k3
    (by cases cls <;> decide) r3 with ⟨h', e, hd⟩ | ⟨-, hn⟩
  · rw [List.nil_append, r1, hc, r2] at hd
    obtain ⟨c, hl⟩ := hd.left
    refine ⟨h, h', k1, e, ?_, ?_, ?_⟩
    · rw [hd.pdus, k4, hparse, List.nil_append, List.map_map]
      rfl
    · rw [hd.ignore, hparse]
      rfl
    · rw [hl.content, hparse]
      rfl
  · rw [List.nil_append, r1, hc, hfits] at hn
    cases hn

/-- **The PDU codec round trip**: whatever the partial sends, the PDUs go out; and however the stream is cut into chunks
a `recv()` can return, a freshly started handler gives `ProcessPDU` exactly them, in order, without `EndSession`, and
holds nothing at the end. -/
theorem codec_round_trip (cls : HandlerClass) (fresh : Nat → BYTE) (errno : Nat) (sent : List SendCall)
    (hsent : ∀ x ∈ sent, x.Sendable) :
    ∃ wire, transmitAll errno sent = .ok wire ∧
      ∀ chunks : List (List BYTE), chunks.flatten = wire → (∀ c ∈ chunks, 1 ≤ c.length ∧ c.length ≤ recvBufRoom) →
        ∃ h h', started cls fresh = .ok h ∧ h.session (chunks.map .bytes) = .ok h' ∧
          List.Forall₂ SameAsSent h'.pdus sent ∧ h'.bIgnore = false ∧ h'.biRecv.content = [] := by
  obtain ⟨ws, h1, h2, h3, h4⟩ := transmitAll_spec errno sent hsent
  refine ⟨ws.flatten, h1, fun chunks hc hlen => ?_⟩
  obtain ⟨h, h', k1, k2, k3, k4, k5⟩ := session_frames cls fresh h2 h4 hc hlen
  refine ⟨h, h', k1, k2, ?_, k4, k5⟩
  rw [k3]
  exact h3

/-- A four-byte body sent as one byte and then the rest. -/
def shortCall : SendCall :=
  { bCode := 1, bReq := true, bErr := false, dwParam := 0xA0B0C0D0
    item := ⟨true, [9, 9, 9, 9, 9, 9, 9, 0xFF, 9, 9, 9, 9, 1, 2, 3, 4], 12, 16, 4⟩, poll := 1, rets := [1, 15] }

theorem codec_round_trip_shortCall :
    ∃ wire, transmitAll 11 [shortCall, shortCall] = .ok wire ∧
      ∀ chunks : List (List BYTE), chunks.flatten = wire → (∀ c ∈ chunks, 1 ≤ c.length ∧ c.length ≤ recvBufRoom) →
        ∃ h h', started .msgServerHandler (fun _ => 0) = .ok h ∧ h.session (chunks.map .bytes) = .ok h' ∧
          List.Forall₂ SameAsSent h'.pdus [shortCall, shortCall] ∧ h'.bIgnore = false ∧ h'.biRecv.content = [] :=
  have hs : shortCall.Sendable := ⟨⟨rfl, rfl, by decide⟩, by decide, by decide, by decide, by decide, by decide⟩
  codec_round_trip .msgServerHandler (fun _ => 0) 11 [shortCall, shortCall] (by simp [hs])

/-! ## However a stream is cut -/

/-- What a freshly started handler does with a stream cut into chunks: its `ProcessPDU` calls, and whether it called
`EndSession`. -/
def freshSession (cls : HandlerClass) (fresh : Nat → BYTE) (chunks : List (List BYTE)) :
    Except Assertion (List Pdu × Bool) :=
  match started cls fresh with
  | .error e => .error e
  | .ok h => match h.session (chunks.map .bytes) with
    | .error e => .error e
    | .ok h' => .ok (h'.pdus, h'.bIgnore)

/-- The reading of a whole stream: header by header, each with the body it announces, up to the first wrong magic. -/
def reference (s : List BYTE) : List Pdu × Bool := ((pduFormat.parse s).frames.map pduOf, (pduFormat.parse s).bad)

/-- **A freshly started handler reads the stream as the reference does.** -/
theorem freshSession_spec (cls : HandlerClass) (fresh : Nat → BYTE) {s : List BYTE}
    (hs : ∀ n ∈ pduFormat.announced s, n ≤ pduMaxLength - sizeofPduCommHdr) {chunks : List (List BYTE)}
    (hc : chunks.flatten = s) (hlen : ∀ c ∈ chunks, 1 ≤ c.length ∧ c.length ≤ recvBufRoom) :
    freshSession cls fresh chunks = .ok (reference s) := by
  obtain ⟨h, k1, k2, k3, k4⟩ := started_spec cls fresh
  obtain ⟨r1, r2, r3⟩ := received_chunks chunks hlen
  have hfits : fits (startOff cls) (pduFormat.announced s) = true :=
    fits_mono (show startOff cls ≤ pduHeadReserve by cases cls <;> decide) ((fits_reserve_iff _).2 hs)
  unfold freshSession
  rw [k1]
  rcases session_spec (chunks.map .bytes) h _ [] [] k2 Format.parse_nil k3
    (by cases cls <;> decide) r3 with ⟨h', e, hd⟩ | ⟨-, hn⟩
  · rw [List.nil_append, r1, hc, r2] at hd
    simp only [e]
    rw [hd.pdus, hd.ignore, k4, List.nil_append, Bool.or_false]
    rfl
  · rw [List.nil_append, r1, hc, hfits] at hn
    cases hn

/-- **A session does not depend on how its stream is cut**: any two ways of cutting it into chunks a `recv()` can
return give the same calls, those of the reference. -/
theorem session_chunking (cls : HandlerClass) (fresh fresh' : Nat → BYTE) (s : List BYTE)
    (hs : ∀ n ∈ pduFormat.announced s, n ≤ pduMaxLength - sizeofPduCommHdr) (chunks chunks' : List (List BYTE))
    (hc : chunks.flatten = s) (hc' : chunks'.flatten = s) (hlen : ∀ c ∈ chunks, 1 ≤ c.length ∧ c.length ≤ 2256)
    (hlen' : ∀ c ∈ chunks', 1 ≤ c.length ∧ c.length ≤ 2256) :
    freshSession cls fresh chunks = freshSession cls fresh' chunks' ∧
      freshSession cls fresh chunks = .ok (reference s) := by
  have h := freshSession_spec cls fresh hs hc hlen
  exact ⟨h.trans (freshSession_spec cls fresh' hs hc' hlen').symm, h⟩

/-- A PDU without a body, and then bytes that are no header. -/
def twoHdrs : List BYTE := hdrBytes (htonl pduMagicNum) 0 7 true false 0 0 ++ List.replicate 12 0x41

theorem session_chunking_twoHdrs : freshSession .myMsgClient (fun _ => 0) [twoHdrs] =
      freshSession .myMsgClient (fun _ => 9) (twoHdrs.map fun b => [b]) ∧
    freshSession .myMsgClient (fun _ => 0) [twoHdrs] = .ok (reference twoHdrs) := by
  have hf : pduFormat.IsFrame (hdrBytes (htonl pduMagicNum) 0 7 true false 0 0) := ⟨by decide, by decide, by decide⟩
  have hb : pduFormat.parse (List.replicate 12 0x41) = ⟨[], List.replicate 12 0x41, true⟩ :=
    Format.parse_bad (by decide) (by decide)
  have hp : pduFormat.parse twoHdrs = _ := Format.parse_isFrame hf (List.replicate 12 0x41)
  refine session_chunking .myMsgClient (fun _ => 0) (fun _ => 9) twoHdrs ?_ [twoHdrs] (twoHdrs.map fun b => [b])
    (by simp) (by decide) (by decide) (by decide)
  unfold Format.announced
  rw [hp, hb]
  decide

end DevMgr
