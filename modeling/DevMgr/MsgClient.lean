import DevMgr.PduStream
/-!
# MsgClient — the sessions of one client object

`MsgClient::Load` initialises the decoder and starts the work thread, which connects, starts a transport, waits, stops
it and connects again.  So one `MyMsgClient` goes through a history of loads and sessions.  `MyMsgClient::OnStarted`
does not call `TransStreamHandler::OnStarted`, which is what empties `_biRecv` between sessions: a session reads the
bytes an earlier one left unread (`unread`) in front of its own.
-/
namespace DevMgr

open Framing

/-- What happens to a loaded object: it is unloaded and loaded again, or goes through one more session. -/
inductive ClientEvent where
  | load
  | session (rs : List RecvRes)

/-- A session of an object: the transport's `Start`, then the `OnRecvReady` calls. -/
def sessionOf (cls : HandlerClass) (h : TransStreamHandler) (rs : List RecvRes) : Except Assertion TransStreamHandler :=
  match h.start cls with
  | .error e => .error e
  | .ok h' => h'.session rs

def clientStep (cls : HandlerClass) (fresh : Nat → BYTE) (h : TransStreamHandler) :
    ClientEvent → Except Assertion TransStreamHandler
  | .load => h.init fresh
  | .session rs => sessionOf cls h rs

/-- The object after a history. -/
def history (cls : HandlerClass) (fresh : Nat → BYTE) : TransStreamHandler → List ClientEvent →
    Except Assertion TransStreamHandler
  | h, [] => .ok h
  | h, e :: es => match clientStep cls fresh h e with
    | .error e => .error e
    | .ok h' => history cls fresh h' es

/-- A newly constructed object after its first `Load` and a history. -/
def clientAfter (cls : HandlerClass) (fresh : Nat → BYTE) (es : List ClientEvent) :
    Except Assertion TransStreamHandler :=
  history cls fresh .new (.load :: es)

/-- What a session shows: the `ProcessPDU` calls, and whether it called `EndSession`. -/
def outcome : Except Assertion TransStreamHandler → Except Assertion (List Pdu × Bool)
  | .error e => .error e
  | .ok h => .ok (h.pdus, h.bIgnore)

def ClientEvent.Fits : ClientEvent → Prop
  | .load => True
  | .session rs => ∀ x ∈ rs, x.Fits

instance : DecidablePred ClientEvent.Fits
  | .load => inferInstanceAs (Decidable True)
  | .session rs => inferInstanceAs (Decidable (∀ x ∈ rs, x.Fits))

/-- The bytes in `_biRecv` and the headroom in front of them after an event. -/
def carryStep (u : List BYTE × Nat) : ClientEvent → List BYTE × Nat
  | .load => ([], 0)
  | .session rs => (leftover (pduFormat.parse (u.1 ++ received rs)),
      offAfter u.2 (bodies (pduFormat.parse (u.1 ++ received rs))))

def carried (es : List ClientEvent) : List BYTE × Nat := es.foldl carryStep ([], 0)

/-- The bytes that the sessions since the last load left unread. -/
def unread (es : List ClientEvent) : List BYTE := (carried es).1

/-- The headroom they left: 0 until a first whole PDU is read. -/
def headroom (es : List ClientEvent) : Nat := (carried es).2

/-- A header with the wrong magic. -/
def BadHdr (r : List BYTE) : Prop := r.length = pduFormat.hdrLen ∧ pduFormat.valid (pduFormat.hdr r) = false

theorem hdr_of_length {r : List BYTE} (h : r.length = pduFormat.hdrLen) : pduFormat.hdr r = r :=
  List.take_of_length_le (Nat.le_of_eq h)

theorem BadHdr.parse {r : List BYTE} (h : BadHdr r) (t : List BYTE) : pduFormat.parse (r ++ t) = ⟨[], r ++ t, true⟩ :=
  Format.parse_bad (by rw [List.length_append, h.1]; exact Nat.le_add_right _ _)
    (by rw [Format.hdr_append t (Nat.le_of_eq h.1.symm), h.2])

theorem BadHdr.leftover {r : List BYTE} (h : BadHdr r) (t : List BYTE) :
    leftover (pduFormat.parse (r ++ t)) = r := by
  rw [h.parse t]
  show pduFormat.hdr (r ++ t) = r
  rw [Format.hdr_append t (Nat.le_of_eq h.1.symm), hdr_of_length h.1]

theorem leftover_cases (s : List BYTE) :
    pduFormat.Incomplete (leftover (pduFormat.parse s)) ∨ BadHdr (leftover (pduFormat.parse s)) := by
  cases hb : (pduFormat.parse s).bad with
  | false =>
    left
    have : leftover (pduFormat.parse s) = (pduFormat.parse s).rest := by unfold leftover; rw [hb]; rfl
    rw [this]
    exact Format.incomplete_rest pduFormat s hb
  | true =>
    right
    obtain ⟨h1, h2⟩ := Format.bad_rest pduFormat s hb
    have hl : (pduFormat.hdr (pduFormat.parse s).rest).length = pduFormat.hdrLen := List.length_take_of_le h1
    have : leftover (pduFormat.parse s) = pduFormat.hdr (pduFormat.parse s).rest := by unfold leftover; rw [hb]; rfl
    rw [this]
    exact ⟨hl, by rw [hdr_of_length hl, h2]⟩

/-- **A session over a left header with the wrong magic** ends at the first call, whatever it receives, and leaves
it. -/
theorem session_badHdr {h : TransStreamHandler} {off : Nat} {r c : List BYTE} (hr : Ready h off r c) (hbad : BadHdr r)
    (hi : h.bIgnore = false) {rs : List RecvRes} (hx : ∀ x ∈ rs, x.Fits) :
    ∃ h' c', h.session rs = .ok h' ∧ Ready h' off r c' ∧ h'.pdus = h.pdus ∧ (rs ≠ [] → h'.bIgnore = true) := by
  cases rs with
  | nil => exact ⟨h, c, rfl, hr, rfl, fun hn => absurd rfl hn⟩
  | cons x rs =>
    have hstop : ∀ h₁ : TransStreamHandler, h₁.bIgnore = true → h₁.session rs = .ok h₁ := by
      intro h₁ h1
      cases rs with
      | nil => rfl
      | cons y ys => rw [TransStreamHandler.session, h1]; rfl
    have hcall : ∃ h₁ c₁, h.onRecvReady x = .ok h₁ ∧ Ready h₁ off r c₁ ∧ h₁.pdus = h.pdus ∧ h₁.bIgnore = true := by
      by_cases hf : x = .bytes [] ∨ ∃ e, x = .failed e
      · obtain ⟨h₁, h1, h2, h3, c', h4⟩ := onRecvReady_failed hr hf
        exact ⟨h₁, c', h1, h4, h2, h3⟩
      · obtain ⟨bs, rfl⟩ : ∃ bs, x = .bytes bs := by
          cases x with
          | failed e => exact absurd (.inr ⟨e, rfl⟩) hf
          | bytes bs => exact ⟨bs, rfl⟩
        have hne : bs ≠ [] := fun hn => hf (.inl (by rw [hn]))
        obtain ⟨g, heq, hready, hp, -⟩ := onRecvReady_bytes hr hne (hx (.bytes bs) List.mem_cons_self)
        have hmag : ¬ (hdrAt r).dwMagic = htonl pduMagicNum := by
          rw [← valid_iff (Nat.le_of_eq hbad.1.symm), hbad.2]
          exact Bool.false_ne_true
        refine ⟨g.endSession, bs, ?_,
          ⟨hready.recv, hready.room, hready.data, hready.content, hready.buf, hready.bufRoom, hready.bufContent⟩, hp,
            rfl⟩
        rw [heq, TransStreamHandler.recvLoop_eq, hready.dataSize, hready.content,
          if_neg (by rw [hbad.1]; exact Nat.lt_irrefl _), if_pos hmag]
    obtain ⟨h₁, c₁, h1, h2, h3, h4⟩ := hcall
    refine ⟨h₁, c₁, ?_, h2, h3, fun _ => h4⟩
    rw [TransStreamHandler.session, hi]
    simp only [Bool.false_eq_true, if_false, h1]
    exact hstop h₁ h4

/-- A loaded object between sessions that holds the bytes `u.1` behind the headroom `u.2`. -/
structure Between (h : TransStreamHandler) (u : List BYTE × Nat) : Prop where
  left : pduFormat.Incomplete u.1 ∨ BadHdr u.1
  off : u.2 = 0 ∨ u.2 = pduHeadReserve
  ready : ∃ c, Ready h u.2 u.1 c

theorem Between.room {h : TransStreamHandler} {u : List BYTE × Nat} (hb : Between h u) :
    u.2 + pduFormat.hdrLen ≤ recvRoom := by
  rcases hb.off with h0 | h0 <;> rw [h0] <;> decide

/-- The session of an object, step by step. -/
theorem sessionOf_myMsgClient {h : TransStreamHandler} {u : List BYTE × Nat} (hb : Between h u) (rs : List RecvRes) :
    ∃ h₁ c, sessionOf .myMsgClient h rs = h₁.session rs ∧ Ready h₁ u.2 u.1 c ∧ h₁.bIgnore = false ∧ h₁.pdus = [] := by
  obtain ⟨c, hr⟩ := hb.ready
  obtain ⟨h₁, k1, k2, k3, k4⟩ := start_spec hr .myMsgClient
  refine ⟨h₁, c, ?_, k4, k2, k3⟩
  unfold sessionOf
  rw [k1]

/-- **What a session that has started leaves**, when no assertion fails in it. -/
theorem Between.played {h h' : TransStreamHandler} {u : List BYTE × Nat} (hb : Between h u) (hi : h.bIgnore = false)
    {rs : List RecvRes} (hx : ∀ x ∈ rs, x.Fits) (hs : h.session rs = .ok h') :
    Between h' (carryStep u (.session rs)) := by
  obtain ⟨c, k2⟩ := hb.ready
  have hoff : ∀ ns, offAfter u.2 ns = 0 ∨ offAfter u.2 ns = pduHeadReserve := by
    intro ns
    unfold offAfter
    split
    · exact hb.off
    · exact .inr rfl
  rcases hb.left with hu | hu
  · rcases session_spec rs h _ _ c k2 hu hi hb.room hx with ⟨h'', e, hd⟩ | ⟨e, -⟩
    · rw [hs] at e
      obtain rfl := Except.ok.inj e
      exact ⟨leftover_cases _, hoff _, hd.left⟩
    · rw [hs] at e
      cases e
  · obtain ⟨h'', c', e, h2, -, -⟩ := session_badHdr k2 hu hi hx
    rw [hs] at e
    obtain rfl := Except.ok.inj e
    have hb0 : bodies (pduFormat.parse (u.1 ++ received rs)) = [] := by rw [hu.parse]; rfl
    have hstep : carryStep u (.session rs) = u := by
      refine Prod.ext (hu.leftover (received rs)) ?_
      show offAfter u.2 (bodies (pduFormat.parse (u.1 ++ received rs))) = u.2
      rw [hb0]
      rfl
    rw [hstep]
    exact ⟨.inr hu, hb.off, c', h2⟩

theorem Between.session {h h' : TransStreamHandler} {u : List BYTE × Nat} (hb : Between h u) {rs : List RecvRes}
    (hx : ∀ x ∈ rs, x.Fits) (hs : sessionOf .myMsgClient h rs = .ok h') : Between h' (carryStep u (.session rs)) := by
  obtain ⟨h₁, c, k1, k2, k3, -⟩ := sessionOf_myMsgClient hb rs
  rw [k1] at hs
  exact Between.played ⟨hb.left, hb.off, c, k2⟩ k3 hx hs

theorem Between.load {h h' : TransStreamHandler} {u : List BYTE × Nat} (hb : Between h u) {fresh : Nat → BYTE}
    (hs : h.init fresh = .ok h') : Between h' (carryStep u .load) := by
  obtain ⟨c, hr⟩ := hb.ready
  obtain ⟨h'', e, h2, -⟩ := init_spec fresh (fun _ => hr.recv.head) (fun _ => hr.buf.head) (Nat.le_of_eq hr.room)
    (Nat.le_of_eq hr.bufRoom)
  rw [hs] at e
  obtain rfl := Except.ok.inj e
  exact ⟨.inl Format.parse_nil, .inl rfl, [], h2⟩

theorem Between.history (fresh : Nat → BYTE) : ∀ (es : List ClientEvent) {h h' : TransStreamHandler}
    {u : List BYTE × Nat}, Between h u → (∀ e ∈ es, e.Fits) → history .myMsgClient fresh h es = .ok h' →
    Between h' (es.foldl carryStep u)
  | [], h, h', u, hb, _, hs => by
    obtain rfl := Except.ok.inj hs
    exact hb
  | e :: es, h, h', u, hb, hx, hs => by
    rw [DevMgr.history] at hs
    split at hs
    · cases hs
    · rename_i h₁ hstep
      refine Between.history fresh es ?_ (fun y hy => hx y (List.mem_cons_of_mem e hy)) hs
      cases e with
      | load => exact hb.load hstep
      | session rs => exact hb.session (hx _ List.mem_cons_self) hstep

/-- **An object's `_biRecv` holds what its sessions since the last load left unread.** -/
theorem clientAfter_between {fresh : Nat → BYTE} {es : List ClientEvent} {h : TransStreamHandler}
    (hx : ∀ e ∈ es, e.Fits)
    (hs : clientAfter .myMsgClient fresh es = .ok h) : Between h (carried es) := by
  obtain ⟨h₀, h1, h2, -⟩ := init_spec (h := .new) fresh (by decide) (by decide) (by decide) (by decide)
  have hstep : clientAfter .myMsgClient fresh es = history .myMsgClient fresh h₀ es := by
    unfold clientAfter
    rw [history]
    simp only [clientStep, h1]
  rw [hstep] at hs
  exact Between.history fresh es ⟨.inl Format.parse_nil, .inl rfl, [], h2⟩ hx hs

/-! ## Objects that hold the same -/

/-- Two objects that differ at most in bytes they will not read. -/
def Alike (h g : TransStreamHandler) : Prop :=
  ∃ off r c c', Ready h off r c ∧ Ready g off r c' ∧ h.pdus = g.pdus ∧ h.bIgnore = g.bIgnore

def AlikeRes : Except Assertion TransStreamHandler → Except Assertion TransStreamHandler → Prop
  | .ok h, .ok g => Alike h g
  | .error e, .error e' => e = e'
  | _, _ => False

theorem recvLoop_alike (h g : TransStreamHandler) (off : Nat) (r c : List BYTE) (hr : Ready h off r c)
    (gr : Ready g off r c) (hp : h.pdus = g.pdus) (hi : h.bIgnore = g.bIgnore) : AlikeRes h.recvLoop g.recvLoop := by
  have htake : ∀ n, 0 < n → n ≤ c.length →
      AlikeRes (match h.takeBytes n with | .error e => .error e | .ok h' => h'.recvLoop)
        (match g.takeBytes n with | .error e => .error e | .ok h' => h'.recvLoop) := by
    intro n hn0 hn
    by_cases hfit : off + r.length + n ≤ recvRoom
    · obtain ⟨h₁, h1, h2, h3, h4⟩ := hr.takeBytes hn hfit
      obtain ⟨g₁, g1, g2, g3, g4⟩ := gr.takeBytes hn hfit
      rw [h1, g1]
      exact recvLoop_alike h₁ g₁ _ _ _ h2 g2 (by rw [h3, g3, hp]) (by rw [h4, g4, hi])
    · rw [hr.takeBytes_overrun hn (by omega), gr.takeBytes_overrun hn (by omega)]
      rfl
  rw [TransStreamHandler.recvLoop_eq h, TransStreamHandler.recvLoop_eq g, hr.dataSize, hr.bufSize, hr.content,
    gr.dataSize, gr.bufSize, gr.content]
  by_cases hlt : r.length < sizeofPduCommHdr
  · rw [if_pos hlt, if_pos hlt]
    by_cases hc : c.length = 0
    · rw [if_pos hc, if_pos hc]
      exact ⟨off, r, c, c, hr, gr, hp, hi⟩
    · rw [if_neg hc, if_neg hc]
      exact htake _ (by omega) (Nat.min_le_right _ _)
  · rw [if_neg hlt, if_neg hlt]
    by_cases hm : (hdrAt r).dwMagic ≠ htonl pduMagicNum
    · rw [if_pos hm, if_pos hm]
      exact ⟨off, r, c, c, ⟨hr.recv, hr.room, hr.data, hr.content, hr.buf, hr.bufRoom, hr.bufContent⟩,
        ⟨gr.recv, gr.room, gr.data, gr.content, gr.buf, gr.bufRoom, gr.bufContent⟩, hp, rfl⟩
    · rw [if_neg hm, if_neg hm]
      by_cases hb : r.length - sizeofPduCommHdr < (ntohs (hdrAt r).wBodySize).toNat
      · rw [if_pos hb, if_pos hb]
        by_cases hc : c.length = 0
        · rw [if_pos hc, if_pos hc]
          exact ⟨off, r, c, c, hr, gr, hp, hi⟩
        · rw [if_neg hc, if_neg hc]
          exact htake _ (by omega) (Nat.min_le_right _ _)
      · rw [if_neg hb, if_neg hb]
        have hl : pduFormat.hdrLen ≤ r.length := Nat.le_of_not_lt hlt
        obtain ⟨h₁, h1, h2, h3, h4⟩ := hr.deliver hl
        obtain ⟨g₁, g1, g2, g3, g4⟩ := gr.deliver hl
        rw [h1, g1]
        exact recvLoop_alike h₁ g₁ _ _ _ h2 g2 (by rw [h3, g3, hp]) (by rw [h4, g4, hi])
termination_by (c.length, r.length)
decreasing_by
  · apply Prod.Lex.left
    rw [List.length_drop]
    omega
  · apply Prod.Lex.right
    have := pduFormat.hdrPos
    simp only [List.length_nil]
    omega

theorem onRecvReady_alike {h g : TransStreamHandler} (ha : Alike h g) {x : RecvRes} (hx : x.Fits) :
    AlikeRes (h.onRecvReady x) (g.onRecvReady x) := by
  obtain ⟨off, r, c, c', hr, gr, hp, hi⟩ := ha
  by_cases hf : x = .bytes [] ∨ ∃ e, x = .failed e
  · obtain ⟨h₁, h1, h2, h3, d, h4⟩ := onRecvReady_failed hr hf
    obtain ⟨g₁, g1, g2, g3, d', g4⟩ := onRecvReady_failed gr hf
    rw [h1, g1]
    exact ⟨off, r, d, d', h4, g4, by rw [h2, g2, hp], by rw [h3, g3]⟩
  · obtain ⟨bs, rfl⟩ : ∃ bs, x = .bytes bs := by
      cases x with
      | failed e => exact absurd (.inr ⟨e, rfl⟩) hf
      | bytes bs => exact ⟨bs, rfl⟩
    have hne : bs ≠ [] := fun hn => hf (.inl (by rw [hn]))
    obtain ⟨h₁, h1, h2, h3, h4⟩ := onRecvReady_bytes hr hne hx
    obtain ⟨g₁, g1, g2, g3, g4⟩ := onRecvReady_bytes gr hne hx
    rw [h1, g1]
    exact recvLoop_alike h₁ g₁ off r bs h2 g2 (by rw [h3, g3, hp]) (by rw [h4, g4, hi])

/-- **A session is determined** by what `_biRecv` holds, where, and by what is received. -/
theorem session_alike : ∀ (rs : List RecvRes) {h g : TransStreamHandler}, Alike h g → (∀ x ∈ rs, x.Fits) →
    AlikeRes (h.session rs) (g.session rs)
  | [], h, g, ha, _ => ha
  | x :: rs, h, g, ha, hx => by
    have hi : h.bIgnore = g.bIgnore := by
      obtain ⟨-, -, -, -, -, -, -, hi⟩ := ha
      exact hi
    rw [TransStreamHandler.session, TransStreamHandler.session, ← hi]
    split
    · exact ha
    · have h1 := onRecvReady_alike ha (hx x List.mem_cons_self)
      cases hh : h.onRecvReady x with
      | error e =>
        cases hg : g.onRecvReady x with
        | error e' => rw [hh, hg] at h1; exact h1
        | ok g' => rw [hh, hg] at h1; exact h1.elim
      | ok h' =>
        cases hg : g.onRecvReady x with
        | error e' => rw [hh, hg] at h1; exact h1.elim
        | ok g' =>
          rw [hh, hg] at h1
          exact session_alike rs h1 fun y hy => hx y (List.mem_cons_of_mem x hy)

theorem outcome_alike {h g : Except Assertion TransStreamHandler} (ha : AlikeRes h g) : outcome h = outcome g := by
  cases h with
  | error e =>
    cases g with
    | error e' => exact congrArg Except.error ha
    | ok g' => exact ha.elim
  | ok h' =>
    cases g with
    | error e' => exact ha.elim
    | ok g' =>
      obtain ⟨-, -, -, -, -, -, hp, hi⟩ := ha
      show Except.ok (h'.pdus, h'.bIgnore) = Except.ok (g'.pdus, g'.bIgnore)
      rw [hp, hi]

/-! ## Isolation -/

/-- What a newly initialised object does in a session. -/
def freshOutcome (fresh : Nat → BYTE) (rs : List RecvRes) : Except Assertion (List Pdu × Bool) :=
  match started .myMsgClient fresh with
  | .error e => .error e
  | .ok h => outcome (h.session rs)

/-- **A session of an object that holds nothing**, by what it receives. -/
theorem outcome_nil {h : TransStreamHandler} {off : Nat} {c : List BYTE} (hr : Ready h off [] c)
    (hi : h.bIgnore = false)
    (hp : h.pdus = []) (ho : off + pduFormat.hdrLen ≤ recvRoom) {rs : List RecvRes} (hx : ∀ x ∈ rs, x.Fits)
    (hf : fits off (pduFormat.announced (received rs)) = true) :
    outcome (h.session rs) = .ok ((pduFormat.parse (received rs)).frames.map pduOf,
      (pduFormat.parse (received rs)).bad || fails rs) := by
  rcases session_spec rs h off [] c hr Format.parse_nil hi ho hx with ⟨h', e, hd⟩ | ⟨-, hn⟩
  · have h1 := hd.pdus
    have h2 := hd.ignore
    rw [hp, List.nil_append, List.nil_append] at h1
    rw [List.nil_append] at h2
    rw [e, ← h1, ← h2]
    rfl
  · rw [List.nil_append, hf] at hn
    cases hn

theorem freshOutcome_spec (fresh : Nat → BYTE) {rs : List RecvRes} (hx : ∀ x ∈ rs, x.Fits)
    (hf : fits 0 (pduFormat.announced (received rs)) = true) :
    freshOutcome fresh rs = .ok ((pduFormat.parse (received rs)).frames.map pduOf,
      (pduFormat.parse (received rs)).bad || fails rs) := by
  obtain ⟨h, k1, k2, k3, k4⟩ := started_spec .myMsgClient fresh
  unfold freshOutcome
  rw [k1]
  exact outcome_nil k2 k3 k4 (by decide) hx hf

/-- The sessions of an object over streams with `ok` show what those of a newly initialised object show. -/
def Isolated (fresh : Nat → BYTE) (h : TransStreamHandler) (ok : List BYTE → Prop) : Prop :=
  ∀ rs : List RecvRes, (∀ x ∈ rs, x.Fits) → ok (received rs) →
    outcome (sessionOf .myMsgClient h rs) = freshOutcome fresh rs

/-- Every body announced fits behind the reserved headroom. -/
def FitsReserve (s : List BYTE) : Prop := fits pduHeadReserve (pduFormat.announced s) = true

theorem isolated_fresh {fresh : Nat → BYTE} {h : TransStreamHandler} (hb : Between h ([], 0)) :
    Isolated fresh h fun _ => True := by
  intro rs hx _
  obtain ⟨h₁, c, h1, h2, h3, h4⟩ := sessionOf_myMsgClient hb rs
  obtain ⟨g, k1, k2, k3, k4⟩ := started_spec .myMsgClient fresh
  unfold freshOutcome
  rw [h1, k1]
  exact outcome_alike (session_alike rs ⟨0, [], c, [], h2, k2, by rw [h4, k4], by rw [h3, k3]⟩ hx)

theorem isolated_fits {fresh : Nat → BYTE} {h : TransStreamHandler} {off : Nat} (hb : Between h ([], off)) :
    Isolated fresh h FitsReserve := by
  intro rs hx hf
  obtain ⟨h₁, c, h1, h2, h3, h4⟩ := sessionOf_myMsgClient hb rs
  have hoff : off ≤ pduHeadReserve := by
    rcases hb.off with h0 | h0
    · exact (show off = 0 from h0) ▸ Nat.zero_le _
    · exact Nat.le_of_eq h0
  rw [h1, outcome_nil h2 h3 h4 hb.room hx (fits_mono hoff hf),
    freshOutcome_spec fresh hx (fits_mono (Nat.zero_le _) hf)]

/-! A session that shows what an object holds: zero bytes, one a call. -/

def zeros (k : Nat) : List RecvRes := (List.replicate k [0]).map .bytes

theorem zeros_spec (k : Nat) : received (zeros k) = List.replicate k 0 ∧ fails (zeros k) = false ∧
    ∀ x ∈ zeros k, x.Fits := by
  obtain ⟨h1, h2, h3⟩ := received_chunks (List.replicate k [0]) (by
    intro c hc
    rw [List.eq_of_mem_replicate hc]
    decide)
  exact ⟨by rw [zeros, h1]; simp, h2, h3⟩

theorem parse_zeros (k : Nat) :
    pduFormat.parse (List.replicate k 0) = ⟨[], List.replicate k 0, decide (pduFormat.hdrLen ≤ k)⟩ := by
  by_cases h : pduFormat.hdrLen ≤ k
  · obtain ⟨m, rfl⟩ := Nat.exists_eq_add_of_le h
    rw [decide_eq_true h]
    refine Format.parse_bad (by rw [List.length_replicate]; exact h) ?_
    rw [← List.replicate_append_replicate, Format.hdr_append _ (Nat.le_of_eq (List.length_replicate).symm),
      hdr_of_length List.length_replicate]
    decide
  · rw [decide_eq_false h]
    exact Format.parse_short (by rw [List.length_replicate]; omega)

theorem fits_zeros (k : Nat) : FitsReserve (List.replicate k 0) := by
  unfold FitsReserve Format.announced
  rw [parse_zeros]
  by_cases h : pduFormat.hdrLen ≤ k
  · have hb := Format.bad_rest pduFormat (List.replicate k 0) (by rw [parse_zeros]; exact decide_eq_true h)
    rw [parse_zeros] at hb
    rw [if_neg (by rw [hb.2]; simp)]
    rfl
  · rw [if_neg (by rw [List.length_replicate]; exact fun hn => h hn.1)]
    rfl

theorem freshOutcome_zeros (fresh : Nat → BYTE) (k : Nat) :
    freshOutcome fresh (zeros k) = .ok ([], decide (pduFormat.hdrLen ≤ k)) := by
  obtain ⟨h1, h2, h3⟩ := zeros_spec k
  rw [freshOutcome_spec fresh h3 (fits_mono (Nat.zero_le _) (by rw [h1]; exact fits_zeros k)), h1, h2, parse_zeros,
    Bool.or_false]
  rfl

/-- **An object that is isolated holds nothing.** -/
theorem unread_of_isolated {fresh : Nat → BYTE} {h : TransStreamHandler} {u : List BYTE × Nat} (hb : Between h u)
    (hiso : Isolated fresh h FitsReserve) : u.1 = [] := by
  by_contra hne
  have hpos : 0 < u.1.length := List.length_pos_iff.2 hne
  have hsame : ∀ k, outcome (sessionOf .myMsgClient h (zeros k)) = .ok ([], decide (pduFormat.hdrLen ≤ k)) := by
    intro k
    obtain ⟨h1, -, h3⟩ := zeros_spec k
    rw [hiso _ h3 (by rw [h1]; exact fits_zeros k), freshOutcome_zeros]
  -- what the object reads after `k` zero bytes is what it held and they
  have hread : pduFormat.Incomplete u.1 → ∀ k, (pduFormat.parse (u.1 ++ List.replicate k 0)).frames = [] ∧
      (pduFormat.parse (u.1 ++ List.replicate k 0)).bad = decide (pduFormat.hdrLen ≤ k) := by
    intro hu k
    obtain ⟨h₁, c, k1, k2, k3, k4⟩ := sessionOf_myMsgClient hb (zeros k)
    obtain ⟨z1, z2, z3⟩ := zeros_spec k
    have hk := hsame k
    rw [k1] at hk
    rcases session_spec (zeros k) h₁ _ _ c k2 hu k3 hb.room z3 with ⟨h', e, hd⟩ | ⟨e, -⟩
    · rw [e] at hk
      have hk' := Except.ok.inj hk
      have hp := hd.pdus
      have hi := hd.ignore
      rw [k4, List.nil_append, (Prod.mk.inj hk').1] at hp
      rw [z2, Bool.or_false, (Prod.mk.inj hk').2] at hi
      rw [z1] at hp hi
      exact ⟨List.map_eq_nil_iff.1 hp.symm, hi.symm⟩
    · rw [e] at hk
      cases hk
  rcases hb.left with hu | hu
  · -- a header is completed first, and if it is accepted then its body
    have hlen : pduFormat.hdrLen ≤ (u.1 ++ List.replicate (pduFormat.hdrLen - u.1.length) 0).length := by
      rw [List.length_append, List.length_replicate]
      omega
    cases hv : pduFormat.valid (pduFormat.hdr (u.1 ++ List.replicate (pduFormat.hdrLen - u.1.length) 0)) with
    | false =>
      have h1 := (hread hu (pduFormat.hdrLen - u.1.length)).2
      have := pduFormat.hdrPos
      rw [Format.parse_bad hlen hv, decide_eq_false (by omega)] at h1
      cases h1
    | true =>
      obtain ⟨n, hn⟩ :
          ∃ n, n = pduFormat.bodyLen (pduFormat.hdr (u.1 ++ List.replicate (pduFormat.hdrLen - u.1.length) 0)) :=
        ⟨_, rfl⟩
      have h1 := (hread hu (pduFormat.hdrLen - u.1.length + n)).1
      rw [← List.replicate_append_replicate, ← List.append_assoc, Format.parse_frame
        (by rw [Format.hdr_append _ hlen, hv]) (by
          rw [Format.frameLen_append _ hlen, List.length_append, List.length_replicate]
          unfold Format.frameLen
          rw [← hn]
          omega)] at h1
      cases h1
  · -- the wrong header ends a session at its first call
    obtain ⟨h₁, c, k1, k2, k3, -⟩ := sessionOf_myMsgClient hb (zeros 1)
    obtain ⟨h', c', e, -, -, hi⟩ := session_badHdr k2 hu k3 (zeros_spec 1).2.2
    have hk := hsame 1
    rw [k1, e] at hk
    have hk' := (Prod.mk.inj (Except.ok.inj hk)).2
    rw [hi (List.cons_ne_nil _ _)] at hk'
    exact absurd hk'.symm (by decide)

/-- A PDU that fits behind no headroom, but not behind the reserved one. -/
def longPdu : List BYTE :=
  hdrBytes (htonl pduMagicNum) (htons (UInt16.ofNat (List.replicate 1000 (0 : BYTE)).length)) 0 false false
    (htonl 0) 0 ++ List.replicate 1000 0

theorem longPdu_spec : pduFormat.IsFrame longPdu ∧ longPdu.length = 1012 := by
  have h1 : (List.replicate 1000 (0 : BYTE)).length = 1000 := List.length_replicate
  refine ⟨(frame_of_hdrBytes (List.replicate 1000 0) (by rw [h1]; decide) 0 false false 0 0).1, ?_⟩
  unfold longPdu
  rw [List.length_append, length_hdrBytes, h1]
  rfl

theorem longPdu_announced : pduFormat.bodyLen (pduFormat.hdr longPdu) = 1000 ∧
    pduFormat.announced longPdu = [1000] := by
  obtain ⟨hf, hl⟩ := longPdu_spec
  have hbody : pduFormat.bodyLen (pduFormat.hdr longPdu) = 1000 := by
    have := hf.2.2
    unfold Format.frameLen at this
    rw [hl] at this
    exact (Nat.add_left_cancel (show pduFormat.hdrLen + 1000 = _ from this)).symm
  refine ⟨hbody, ?_⟩
  have h1 := announced_flatten (show ∀ w ∈ [longPdu], pduFormat.IsFrame w by
    intro w hw
    rw [List.mem_singleton.1 hw]
    exact hf)
  rw [List.flatten_singleton] at h1
  rw [h1, List.map_singleton, hbody]

/-- **An object that has read a PDU** has less room than a newly initialised one. -/
theorem headroom_of_isolated {fresh : Nat → BYTE} {h : TransStreamHandler} {off : Nat} (hb : Between h ([], off))
    (hiso : Isolated fresh h fun _ => True) : off = 0 := by
  refine hb.off.resolve_right fun h0 => ?_
  have h0 : off = pduHeadReserve := h0
  obtain ⟨hf, hl⟩ := longPdu_spec
  obtain ⟨r1, r2, r3⟩ := received_chunks [longPdu] (by
    intro c hc
    rw [List.mem_singleton.1 hc, hl]
    decide)
  rw [List.flatten_singleton] at r1
  obtain ⟨hbody, hann⟩ := longPdu_announced
  have hfresh := freshOutcome_spec fresh r3 (by rw [r1, hann]; decide)
  obtain ⟨h₁, c, k1, k2, k3, -⟩ := sessionOf_myMsgClient hb ([longPdu].map .bytes)
  have hsame := hiso _ r3 trivial
  rw [hfresh, k1] at hsame
  rcases session_spec _ h₁ _ _ c k2 Format.parse_nil k3 hb.room r3 with ⟨h', e, hd⟩ | ⟨e, -⟩
  · have h1 := Format.parse_isFrame hf []
    rw [List.append_nil, Format.parse_nil] at h1
    have hfit := hd.fit
    unfold bodies at hfit
    rw [List.nil_append, r1, h1] at hfit
    simp only [List.map_cons, List.map_nil, hbody] at hfit
    rw [h0] at hfit
    exact absurd hfit (by decide)
  · rw [e] at hsame
    cases hsame

/-- **When sessions are isolated.**  After any history of loads and sessions: the next session shows what a newly
initialised object would, whatever it receives, exactly when those since the last load read no whole PDU and left
nothing unread; and whatever it receives that fits behind the reserved headroom, exactly when they left nothing
unread. -/
theorem isolated_iff (fresh fresh' : Nat → BYTE) {es : List ClientEvent} {h : TransStreamHandler}
    (hx : ∀ e ∈ es, e.Fits)
    (hs : clientAfter .myMsgClient fresh es = .ok h) :
    (Isolated fresh' h (fun _ => True) ↔ unread es = [] ∧ headroom es = 0) ∧
      (Isolated fresh' h FitsReserve ↔ unread es = []) := by
  have hb := clientAfter_between hx hs
  have hb' : unread es = [] → Between h ([], headroom es) := by
    intro hu
    have : carried es = ([], headroom es) := Prod.ext hu rfl
    rw [← this]
    exact hb
  have hpart : Isolated fresh' h FitsReserve ↔ unread es = [] :=
    ⟨fun hiso => unread_of_isolated hb hiso, fun hu => isolated_fits (hb' hu)⟩
  refine ⟨⟨fun hiso => ?_, fun hu => ?_⟩, hpart⟩
  · have hu := hpart.1 fun rs hr _ => hiso rs hr trivial
    exact ⟨hu, headroom_of_isolated (hb' hu) hiso⟩
  · refine isolated_fresh ?_
    rw [← hu.2]
    exact hb' hu.1

/-! ## One byte left in front of a PDU -/

theorem clientAfter_short : ∃ h, clientAfter .myMsgClient (fun _ => 0) [.session [.bytes [0x55]]] = .ok h := by
  obtain ⟨h₀, h1, h2, -⟩ := init_spec (h := .new) (fun _ => 0) (by decide) (by decide) (by decide) (by decide)
  have hb : Between h₀ ([], 0) := ⟨.inl Format.parse_nil, .inl rfl, [], h2⟩
  obtain ⟨h₁, c, k1, k2, k3, k4⟩ := sessionOf_myMsgClient hb [.bytes [0x55]]
  have hann : pduFormat.announced [0x55] = [] := by
    unfold Format.announced
    rw [Format.parse_short (by decide)]
    decide
  have hstep : ∀ h, clientAfter .myMsgClient (fun _ => 0) [.session [.bytes [0x55]]] = .ok h ↔
      h₁.session [.bytes [0x55]] = .ok h := by
    intro h
    unfold clientAfter
    rw [history]
    simp only [clientStep, h1]
    rw [history]
    simp only [clientStep, k1]
    cases h₁.session [.bytes [0x55]] <;> simp [history]
  rcases session_spec [.bytes [0x55]] h₁ 0 [] c k2 Format.parse_nil k3 (by decide) (by decide) with ⟨h, e, -⟩ | ⟨-, hn⟩
  · exact ⟨h, (hstep h).2 e⟩
  · rw [show [] ++ received [.bytes [0x55]] = [0x55] from rfl, hann] at hn
    cases hn

theorem isolated_iff_short : ∃ h, clientAfter .myMsgClient (fun _ => 0) [.session [.bytes [0x55]]] = .ok h ∧
    ¬ Isolated (fun _ => 0) h FitsReserve := by
  obtain ⟨h, hs⟩ := clientAfter_short
  refine ⟨h, hs, fun hiso => ?_⟩
  have hu := (isolated_iff (fun _ => 0) (fun _ => 0)
    (show ∀ e ∈ [ClientEvent.session [.bytes [0x55]]], e.Fits by decide) hs).2.1 hiso
  have h1 : unread [.session [.bytes [0x55]]] = leftover (pduFormat.parse [0x55]) := rfl
  rw [h1, Format.parse_short (by decide)] at hu
  cases hu

/-- A PDU without a body. -/
def emptyPdu : List BYTE := hdrBytes (htonl pduMagicNum) (htons 0) 1 true false 0 0

/-- **A session that is not isolated**: one byte left from the session before makes a client take a whole PDU for a
header with the wrong magic. -/
theorem session_not_isolated : ∃ h, clientAfter .myMsgClient (fun _ => 0) [.session [.bytes [0x55]]] = .ok h ∧
    outcome (sessionOf .myMsgClient h [.bytes emptyPdu]) = .ok ([], true) ∧
    freshOutcome (fun _ => 0) [.bytes emptyPdu] = .ok ([⟨⟨htonl pduMagicNum, 0, 1, true, false, 0, 0⟩, []⟩], false) ∧
    ¬ Isolated (fun _ => 0) h fun _ => True := by
  obtain ⟨h, hs⟩ := clientAfter_short
  have hx : ∀ x ∈ [RecvRes.bytes emptyPdu], x.Fits := by decide
  have hb := clientAfter_between (show ∀ e ∈ [ClientEvent.session [.bytes [0x55]]], e.Fits by decide) hs
  have hc : carried [.session [.bytes [0x55]]] = ([0x55], 0) := by
    have h1 : carried [.session [.bytes [0x55]]] =
      (leftover (pduFormat.parse [0x55]), offAfter 0 (bodies (pduFormat.parse [0x55]))) := rfl
    rw [h1, Format.parse_short (by decide)]
    rfl
  rw [hc] at hb
  have hactual : outcome (sessionOf .myMsgClient h [.bytes emptyPdu]) = .ok ([], true) := by
    obtain ⟨h₁, c, k1, k2, k3, k4⟩ := sessionOf_myMsgClient hb [.bytes emptyPdu]
    have hp : pduFormat.parse ([0x55] ++ received [.bytes emptyPdu]) = ⟨[], [0x55] ++ emptyPdu, true⟩ :=
      Format.parse_bad (by decide) (by decide)
    rcases session_spec _ h₁ 0 [0x55] c k2 (Format.incomplete_of_lt (by decide)) k3
      (by decide) hx with ⟨h', e, hd⟩ | ⟨-, hn⟩
    · have h1 := hd.pdus
      have h2 := hd.ignore
      rw [hp, k4] at h1
      rw [hp] at h2
      rw [k1, e]
      show Except.ok (h'.pdus, h'.bIgnore) = _
      rw [h1, h2]
      rfl
    · rw [Format.announced_bad pduFormat _ (by rw [hp]), hp] at hn
      cases hn
  have hfresh : freshOutcome (fun _ => 0) [.bytes emptyPdu] =
      .ok ([⟨⟨htonl pduMagicNum, 0, 1, true, false, 0, 0⟩, []⟩], false) := by
    have hf : pduFormat.IsFrame emptyPdu := ⟨by decide, by decide, by decide⟩
    have hparse := Format.parse_isFrame hf []
    rw [Format.parse_nil] at hparse
    have hbytes : received [.bytes emptyPdu] = emptyPdu ++ [] := rfl
    have hann : pduFormat.announced (emptyPdu ++ []) = [0] := by
      unfold Format.announced
      rw [hparse]
      decide
    rw [freshOutcome_spec (fun _ => 0) hx (by rw [hbytes, hann]; decide), hbytes, hparse]
    decide
  refine ⟨h, hs, hactual, hfresh, fun hiso => ?_⟩
  have h1 := hiso _ hx trivial
  rw [hactual, hfresh] at h1
  exact absurd h1 (by decide)

end DevMgr
