import DevMgr.MsgClient
/-!
# Overrun — the receive buffer over the sessions of an object

Nothing compares a body that a header announces with the room behind it, so whether the `Put`s of `OnRecvReady` stay
inside `_biRecv` depends on what the peer announces and on where the header stands: behind the bytes that earlier
sessions left and at the headroom they left (`begins`).  A `MyMsgClient` goes through many sessions.
-/
namespace DevMgr

open Framing

/-- The bytes in `_biRecv` and the headroom in front of them once a session has started: `MyMsgClient::OnStarted` leaves
them. -/
def begins : HandlerClass → List BYTE × Nat → List BYTE × Nat
  | .msgServerHandler, _ => ([], pduHeadReserve)
  | .myMsgClient, u => u

/-- A header is read whose body, at the headroom in front of it, does not fit in the allocation. -/
def TooLong (h : TransStreamHandler) (s : List BYTE) : Prop :=
  fits h.biRecv.data (pduFormat.announced (h.biRecv.content ++ s)) = false

/-- **No overrun**: over a history of loads and sessions every `Put` stays inside the allocation, and a session in which
a header announces a body too long for it has ended once the header is read. -/
def NoOverrun (cls : HandlerClass) (fresh : Nat → BYTE) : TransStreamHandler → List ClientEvent → Prop
  | _, [] => True
  | h, .load :: es => ∃ h', h.init fresh = .ok h' ∧ NoOverrun cls fresh h' es
  | h, .session rs :: es => ∃ h₁, h.start cls = .ok h₁ ∧
    (∀ ps, ps <+: rs → ∃ h', h₁.session ps = .ok h' ∧ (TooLong h₁ (received ps) → h'.bIgnore = true)) ∧
    ∀ h', h₁.session rs = .ok h' → NoOverrun cls fresh h' es

/-- **In each session every accepted header that is read**, in the bytes left before it and its own, announces a body
that fits behind it. -/
def fitsAll (cls : HandlerClass) : List BYTE × Nat → List ClientEvent → Bool
  | _, [] => true
  | _, .load :: es => fitsAll cls ([], 0) es
  | u, .session rs :: es =>
    fits (begins cls u).2 (pduFormat.announced ((begins cls u).1 ++ received rs)) &&
      fitsAll cls (carryStep (begins cls u) (.session rs)) es

/-! ## One session -/

theorem received_append : ∀ (ps rs : List RecvRes), ∃ t, received (ps ++ rs) = received ps ++ t
  | [], rs => ⟨received rs, rfl⟩
  | .bytes (b :: bs) :: ps, rs => by
    obtain ⟨t, ht⟩ := received_append ps rs
    exact ⟨t, by rw [List.cons_append, received, ht, received, List.append_assoc]⟩
  | .bytes [] :: _, _ | .failed _ :: _, _ => ⟨[], rfl⟩

/-- The calls before the one that fails. -/
theorem received_before_failure : ∀ rs : List RecvRes, ∃ ps, ps <+: rs ∧ received ps = received rs ∧ fails ps = false
  | [] => ⟨[], List.prefix_refl _, rfl, rfl⟩
  | .bytes (b :: bs) :: rs => by
    obtain ⟨ps, h1, h2, h3⟩ := received_before_failure rs
    exact ⟨.bytes (b :: bs) :: ps, (List.prefix_cons_inj _).2 h1, by rw [received, h2, received], h3⟩
  | .bytes [] :: _ | .failed _ :: _ => ⟨[], List.nil_prefix, rfl, rfl⟩

theorem fits_received {off : Nat} {u : List BYTE} {ps rs : List RecvRes} (hp : ps <+: rs)
    (hf : fits off (pduFormat.announced (u ++ received rs)) = true) :
    fits off (pduFormat.announced (u ++ received ps)) = true := by
  obtain ⟨qs, rfl⟩ := hp
  obtain ⟨t, ht⟩ := received_append ps qs
  rw [ht, ← List.append_assoc] at hf
  exact fits_left (Format.announced_prefix pduFormat _ _) hf

/-- A session that starts. -/
theorem Between.start {h : TransStreamHandler} {u : List BYTE × Nat} (hb : Between h u) (cls : HandlerClass) :
    ∃ h₁, h.start cls = .ok h₁ ∧ Between h₁ (begins cls u) ∧ h₁.bIgnore = false := by
  obtain ⟨c, hr⟩ := hb.ready
  obtain ⟨h₁, k1, k2, -, k4⟩ := start_spec hr cls
  refine ⟨h₁, k1, ?_, k2⟩
  cases cls with
  | msgServerHandler => exact ⟨.inl Format.parse_nil, .inr rfl, c, k4⟩
  | myMsgClient => exact ⟨hb.left, hb.off, c, k4⟩

theorem BadHdr.announced {r : List BYTE} (h : BadHdr r) (t : List BYTE) : pduFormat.announced (r ++ t) = [] := by
  rw [Format.announced_bad pduFormat _ (by rw [h.parse]), h.parse]
  rfl

/-- **A session stays inside the buffer exactly when what is announced in it fits.** -/
theorem Between.session_iff {h : TransStreamHandler} {u : List BYTE × Nat} (hb : Between h u) (hi : h.bIgnore = false)
    {rs : List RecvRes} (hx : ∀ x ∈ rs, x.Fits) :
    (∀ ps, ps <+: rs → ∃ h', h.session ps = .ok h' ∧ (TooLong h (received ps) → h'.bIgnore = true)) ↔
      fits u.2 (pduFormat.announced (u.1 ++ received rs)) = true := by
  obtain ⟨c, hr⟩ := hb.ready
  have hlong : ∀ s, TooLong h s ↔ fits u.2 (pduFormat.announced (u.1 ++ s)) = false := by
    intro s
    unfold TooLong
    rw [hr.data, hr.content]
  constructor
  · intro hall
    rcases hb.left with hu | hu
    · by_contra hn
      obtain ⟨ps, hp, hrec, hok⟩ := received_before_failure rs
      obtain ⟨h', hs, hend⟩ := hall ps hp
      have hxp : ∀ x ∈ ps, x.Fits := fun x hm => hx x (hp.subset hm)
      rcases session_spec ps h _ _ c hr hu hi hb.room hxp with ⟨h'', e, hd⟩ | ⟨e, -⟩
      · rw [hs] at e
        obtain rfl := Except.ok.inj e
        have hbad := hend ((hlong _).2 (by rw [hrec]; exact Bool.not_eq_true _ ▸ hn))
        rw [hd.ignore, hok, Bool.or_false] at hbad
        -- a reading that stopped at a header took only frames that fit
        have hann := Format.announced_bad pduFormat _ hbad
        have hfit : fits u.2 (pduFormat.announced (u.1 ++ received ps)) = true := by
          rw [hann]
          exact hd.fit
        rw [hrec] at hfit
        exact hn hfit
      · rw [hs] at e
        cases e
    · rw [hu.announced]
      rfl
  · intro hf ps hp
    have hxp : ∀ x ∈ ps, x.Fits := fun x hm => hx x (hp.subset hm)
    have hfp := fits_received hp hf
    have hno : ¬ TooLong h (received ps) := by
      rw [hlong, hfp]
      exact Bool.true_eq_false_eq_False.elim
    rcases hb.left with hu | hu
    · rcases session_spec ps h _ _ c hr hu hi hb.room hxp with ⟨h', e, -⟩ | ⟨-, hn⟩
      · exact ⟨h', e, fun hl => absurd hl hno⟩
      · rw [hfp] at hn
        cases hn
    · obtain ⟨h', -, e, -⟩ := session_badHdr hr hu hi hxp
      exact ⟨h', e, fun hl => absurd hl hno⟩

/-! ## A history -/

theorem noOverrun_between (cls : HandlerClass) (fresh : Nat → BYTE) : ∀ (es : List ClientEvent)
    {h : TransStreamHandler} {u : List BYTE × Nat}, Between h u → (∀ e ∈ es, e.Fits) →
    (NoOverrun cls fresh h es ↔ fitsAll cls u es = true)
  | [], _, _, _, _ => iff_of_true trivial rfl
  | .load :: es, h, u, hb, hx => by
    obtain ⟨c, hr⟩ := hb.ready
    obtain ⟨h₁, h1, h2, -⟩ := init_spec fresh (fun _ => hr.recv.head) (fun _ => hr.buf.head) (Nat.le_of_eq hr.room)
      (Nat.le_of_eq hr.bufRoom)
    have ih := noOverrun_between cls fresh es (h := h₁) (u := ([], 0)) ⟨.inl Format.parse_nil, .inl rfl, [], h2⟩
      fun e he => hx e (List.mem_cons_of_mem _ he)
    rw [NoOverrun, fitsAll, ← ih, h1]
    exact ⟨fun ⟨h', he, hn⟩ => Except.ok.inj he ▸ hn, fun hn => ⟨h₁, rfl, hn⟩⟩
  | .session rs :: es, h, u, hb, hx => by
    have hxs : ∀ x ∈ rs, x.Fits := hx _ List.mem_cons_self
    have hxe : ∀ e ∈ es, e.Fits := fun e he => hx e (List.mem_cons_of_mem _ he)
    obtain ⟨h₁, h1, hb₁, hi⟩ := hb.start cls
    have hone := hb₁.session_iff hi hxs
    rw [NoOverrun, fitsAll, Bool.and_eq_true, ← hone, h1]
    constructor
    · rintro ⟨h', he, hall, hrest⟩
      obtain rfl := Except.ok.inj he
      obtain ⟨h₂, h2, -⟩ := hall rs (List.prefix_refl rs)
      exact ⟨hall, (noOverrun_between cls fresh es (hb₁.played hi hxs h2) hxe).1 (hrest h₂ h2)⟩
    · rintro ⟨hall, hrest⟩
      exact ⟨h₁, rfl, hall, fun h₂ h2 => (noOverrun_between cls fresh es (hb₁.played hi hxs h2) hxe).2 hrest⟩

/-- **When the receive buffer is safe**: over the whole history of a newly constructed object, exactly when every
accepted header that is read in a session announces a body that fits behind it. -/
theorem noOverrun_iff (cls : HandlerClass) (fresh : Nat → BYTE) {es : List ClientEvent} (hx : ∀ e ∈ es, e.Fits) :
    NoOverrun cls fresh .new (.load :: es) ↔ fitsAll cls ([], 0) es = true := by
  obtain ⟨h₀, h1, h2, -⟩ := init_spec (h := .new) fresh (by decide) (by decide) (by decide) (by decide)
  have hrest := noOverrun_between cls fresh es (h := h₀) (u := ([], 0)) ⟨.inl Format.parse_nil, .inl rfl, [], h2⟩ hx
  rw [NoOverrun, ← hrest, h1]
  exact ⟨fun ⟨h', he, hn⟩ => Except.ok.inj he ▸ hn, fun hn => ⟨h₀, rfl, hn⟩⟩

theorem emptyPdu_parse : pduFormat.parse emptyPdu =
    ⟨[(pduFormat.hdr emptyPdu, emptyPdu.drop pduFormat.hdrLen)], [], false⟩ := by
  have hf : pduFormat.IsFrame emptyPdu := (frame_of_hdrBytes [] (by decide) 1 true false 0 0).1
  have h1 := Format.parse_isFrame hf []
  rw [List.append_nil, Format.parse_nil] at h1
  exact h1

/-- The same PDU of 1000 body bytes is safe as the first that a client receives, and puts bytes past the allocation in
the session after one in which a PDU was received. -/
theorem noOverrun_iff_reconnected :
    NoOverrun .myMsgClient (fun _ => 0) .new [.load, .session [.bytes longPdu]] ∧
      ¬ NoOverrun .myMsgClient (fun _ => 0) .new [.load, .session [.bytes emptyPdu], .session [.bytes longPdu]] := by
  obtain ⟨-, hann⟩ := longPdu_announced
  have hl : ∀ x ∈ [RecvRes.bytes longPdu], x.Fits := by
    intro x hm
    rw [List.mem_singleton.1 hm]
    show longPdu.length ≤ _
    rw [longPdu_spec.2]
    decide
  have hrecv : received [.bytes longPdu] = longPdu := by
    have h1 := (received_chunks [longPdu] (by
      intro c hc
      rw [List.mem_singleton.1 hc, longPdu_spec.2]
      decide)).1
    rwa [List.flatten_singleton] at h1
  constructor
  · rw [noOverrun_iff .myMsgClient (fun _ => 0) (show ∀ e ∈ [ClientEvent.session [.bytes longPdu]], e.Fits by
      intro e he
      rw [List.mem_singleton.1 he]
      exact hl)]
    rw [fitsAll, fitsAll, Bool.and_true, hrecv]
    show fits 0 (pduFormat.announced longPdu) = true
    rw [hann]
    decide
  · have hfits : ∀ e ∈ [ClientEvent.session [.bytes emptyPdu], .session [.bytes longPdu]], e.Fits := by
      intro e he
      rcases List.mem_pair.1 he with rfl | rfl
      · exact (show ∀ x ∈ [RecvRes.bytes emptyPdu], x.Fits by decide)
      · exact hl
    rw [noOverrun_iff .myMsgClient (fun _ => 0) hfits]
    have hcarry : carryStep ([], 0) (.session [.bytes emptyPdu]) = ([], pduHeadReserve) := by
      show (leftover (pduFormat.parse emptyPdu), offAfter 0 (bodies (pduFormat.parse emptyPdu))) = _
      rw [emptyPdu_parse]
      rfl
    rw [fitsAll, fitsAll, fitsAll, hrecv, Bool.and_true, Bool.and_eq_true]
    rintro ⟨-, hlong⟩
    rw [begins, begins, hcarry] at hlong
    have hlong : fits pduHeadReserve (pduFormat.announced longPdu) = true := hlong
    rw [hann] at hlong
    exact absurd hlong (by decide)

/-! ## A body that is announced too long -/

/-- A header with the right magic that announces 65535 bytes. -/
def hugeHdr : List BYTE := hdrBytes (htonl pduMagicNum) (htons 65535) 0 false false 0 0

/-- **The overrun**: the header and 989 body bytes in one chunk make `Put` fail its assertion. -/
theorem put_overruns : ∃ h, started .msgServerHandler (fun _ => 0) = .ok h ∧
    h.session [.bytes (hugeHdr ++ List.replicate 989 0)] = .error .putEnd ∧
    ¬ NoOverrun .msgServerHandler (fun _ => 0) .new [.load, .session [.bytes (hugeHdr ++ List.replicate 989 0)]] := by
  have hlen : (hugeHdr ++ List.replicate 989 0).length = 1001 := by rw [List.length_append, List.length_replicate]; rfl
  obtain ⟨r1, -, r3⟩ := received_chunks [hugeHdr ++ List.replicate 989 0] (by
    intro c hc
    rw [List.mem_singleton.1 hc, hlen]
    decide)
  obtain ⟨h, k1, k2, k3, -⟩ := started_spec .msgServerHandler fun _ => 0
  have hover : h.session [.bytes (hugeHdr ++ List.replicate 989 0)] = .error .putEnd := by
    rcases session_spec _ h _ [] [] k2 Format.parse_nil k3 (by decide) r3 with ⟨h', e, hd⟩ | ⟨e, -⟩
    · -- the whole body is never there, so all 1001 bytes would have to be in the allocation
      exfalso
      rw [List.nil_append, r1, List.flatten_singleton] at hd
      have hv : pduFormat.valid (pduFormat.hdr (hugeHdr ++ List.replicate 989 0)) = true := by
        rw [Format.hdr_append _ (Nat.le_refl _)]
        decide
      have hfl : pduFormat.frameLen (hugeHdr ++ List.replicate 989 0) = 12 + 65535 := by
        rw [Format.frameLen_append _ (Nat.le_refl _)]
        decide
      have hp := Format.parse_begun (F := pduFormat) (s := hugeHdr ++ List.replicate 989 0)
        (by rw [hlen]; decide) hv (by rw [hlen, hfl]; decide)
      obtain ⟨c, hl⟩ := hd.left
      have h1 := hl.recv.tail
      have h2 := hl.recv.bound
      have h3 := hl.room
      have h4 := hl.data
      rw [hp] at h4
      rw [← hl.recv.length_content, hl.content, hp] at h1
      have h5 : (leftover ⟨[], hugeHdr ++ List.replicate 989 0, false⟩).length = 1001 := hlen
      have h6 : offAfter (startOff .msgServerHandler) (bodies ⟨[], hugeHdr ++ List.replicate 989 0, false⟩) = 256 := rfl
      have h7 : recvRoom = 1256 := rfl
      rw [h5] at h1
      rw [h6] at h4
      unfold BufferItem.room at h3
      omega
    · exact e
  refine ⟨h, k1, hover, ?_⟩
  rw [NoOverrun]
  rintro ⟨g, hg, hn⟩
  rw [NoOverrun] at hn
  obtain ⟨h₁, h1, hall, -⟩ := hn
  have hsame : started .msgServerHandler (fun _ => 0) = .ok h₁ := by
    unfold started
    rw [hg]
    exact h1
  rw [k1] at hsame
  obtain rfl := Except.ok.inj hsame
  obtain ⟨h', e, -⟩ := hall _ (List.prefix_refl _)
  rw [hover] at e
  cases e

end DevMgr
