import DevMgr.Machine
import DevMgr.MiscUtils
/-!
# BcastServer — the discovery service

`bc_socket_cb` receives into a buffer on its stack and has `strstr` look for the request there.  Nothing clears the
buffer and nothing puts a zero behind the datagram, so what the search sees depends on what the stack holds.  Nor is
`addr_len` set: whether `recvfrom` stores the sender's address, and `sendto` takes it, depends on the stack too.
-/
namespace DevMgr.BcastServer

open Machines MiscUtils

def ipFound : List BYTE := ascii "IP_FOUND"
def ipFoundAck : List BYTE := ascii "IP_FOUND_ACK"
def bufferSize : Nat := 1024

/-- The bytes that the callback has room for. -/
structure Buffer where
  bytes : List BYTE
  length_eq : bytes.length = bufferSize

/-- The bytes of a `sockaddr_in`: the family, the port, the address and zeros. -/
structure SockAddr where
  bytes : List BYTE
  length_eq : bytes.length = 16
  deriving DecidableEq

/-- What is received, and from whom. -/
structure Datagram where
  bytes : List BYTE
  length_le : bytes.length ≤ bufferSize
  source : SockAddr

/-- `bs` at the beginning, and behind it what was there. -/
def Buffer.store (b : Buffer) (bs : List BYTE) (h : bs.length ≤ bufferSize) : Buffer where
  bytes := bs ++ b.bytes.drop bs.length
  length_eq := by rw [List.length_append, List.length_drop, b.length_eq, Nat.add_sub_cancel' h]

/-- The first `n` bytes of an address over another. -/
def SockAddr.store (a source : SockAddr) (n : Nat) : SockAddr where
  bytes := source.bytes.take n ++ a.bytes.drop n
  length_eq := by
    rw [List.length_append, List.length_take, List.length_drop, a.length_eq, source.length_eq]
    omega

/-- The callback's variables. -/
structure Stack where
  buffer : Buffer
  clientAddr : SockAddr
  addrLen : Int

/-- `recvfrom` stores as much of the sender's address as `addr_len` says there is room for, and then its size.  With a
length below 0 the call fails, when the datagram is in the buffer. -/
def Stack.recvfrom (s : Stack) (d : Datagram) : Stack :=
  let buffer := s.buffer.store d.bytes d.length_le
  if 0 ≤ s.addrLen then { buffer, clientAddr := s.clientAddr.store d.source s.addrLen.toNat, addrLen := 16 }
  else { s with buffer }

/-- The addresses that `sendto` takes: of the family AF_INET or none, with a port. -/
def SockAddr.Valid (a : SockAddr) : Prop :=
  (a.bytes.take 2 = [2, 0] ∨ a.bytes.take 2 = [0, 0]) ∧ (a.bytes.drop 2).take 2 ≠ [0, 0]

instance (a : SockAddr) : Decidable a.Valid := inferInstanceAs (Decidable ((_ ∨ _) ∧ _ ≠ _))

/-- How a search ends that must not read behind its memory. -/
inductive Search where
  | found
  | absent
  | pastEnd
  deriving DecidableEq

/-- `strstr`, which knows of no end but a zero. -/
def search (szMatch : List BYTE) : List BYTE → Search
  | [] => .pastEnd
  | c :: s =>
    if szMatch.isPrefixOf (c :: s) then .found
    else if c = 0 then .absent
    else search szMatch s

inductive Outcome where
  | sent (reply : List BYTE) (client : SockAddr)
  | silent
  /-- `sendto` has returned -1. -/
  | refused
  | pastEnd
  deriving DecidableEq

def bcSocketCb (s : Stack) (d : Datagram) : Outcome × Stack :=
  let s := s.recvfrom d
  match search ipFound s.buffer.bytes with
  | .found =>
    let s := { s with buffer := s.buffer.store (ipFoundAck ++ [0]) (by decide) }
    (if 0 ≤ s.addrLen ∧ s.clientAddr.Valid then .sent (s.buffer.bytes.takeWhile (· ≠ 0)) s.clientAddr else .refused, s)
  | .absent => (.silent, s)
  | .pastEnd => (.pastEnd, s)

structure Call where
  datagram : Datagram
  outcome : Outcome

/-- The request is in the datagram, in front of any zero. -/
def Datagram.Asks (d : Datagram) : Prop := ipFound <:+: d.bytes.takeWhile (· ≠ 0)

instance (d : Datagram) : Decidable d.Asks := inferInstanceAs (Decidable (_ <:+: _))

/-- A call that answers its own datagram, and reads nothing behind the buffer. -/
structure Call.Right (c : Call) : Prop where
  within : c.outcome ≠ .pastEnd
  answered : c.datagram.Asks → c.outcome = .sent ipFoundAck c.datagram.source
  quiet : ¬ c.datagram.Asks → ∀ reply client, c.outcome ≠ .sent reply client

/-- `lost` after a search that has left the buffer: nothing is known of what follows. -/
structure State where
  stack : Stack
  calls : List Call
  lost : Bool

inductive Action where
  /-- Other functions use the stack. -/
  | reuse (stack : Stack)
  | received (d : Datagram)

def State.next (s : State) : Action → State
  | .reuse stack => ⟨stack, s.calls, s.lost⟩
  | .received d =>
    let (outcome, stack) := bcSocketCb s.stack d
    ⟨stack, s.calls ++ [⟨d, outcome⟩], outcome = .pastEnd⟩

def machine : Machine State Action where
  init s := s.calls = [] ∧ s.lost = false
  step s a := if s.lost = false then some (s.next a) else none

/-- What stands behind the datagram. -/
def Stack.rest (s : Stack) (d : Datagram) : List BYTE := s.buffer.bytes.drop d.bytes.length

/-- The address that the reply goes to: the sender's as far as it is stored, and what the stack has behind that. -/
def Stack.client (s : Stack) (d : Datagram) : SockAddr := s.clientAddr.store d.source s.addrLen.toNat

/-- A reply would be sent. -/
def Stack.Sends (s : Stack) (d : Datagram) : Prop := 0 ≤ s.addrLen ∧ (s.client d).Valid

instance (s : Stack) (d : Datagram) : Decidable (s.Sends d) := inferInstanceAs (Decidable (_ ∧ _))

/-- What the stack holds does not matter.  A request is answered to the address that it came from; anything else has a
zero, or is followed by one that comes before any request, or by a request whose answer `sendto` refuses. -/
def Decides (s : Stack) (d : Datagram) : Prop :=
  if d.Asks then s.Sends d ∧ s.client d = d.source
  else 0 ∈ d.bytes ∨
    if ipFound <:+: d.bytes ++ (s.rest d).takeWhile (· ≠ 0) then ¬ s.Sends d else 0 ∈ s.rest d

def Settled (s : State) : Action → Prop
  | .reuse _ => True
  | .received d => Decides s.stack d

instance (s : Stack) (d : Datagram) : Decidable (Decides s d) := by
  unfold Decides
  infer_instance

instance (s : State) : ∀ a, Decidable (Settled s a)
  | .reuse _ => .isTrue trivial
  | .received d => inferInstanceAs (Decidable (Decides s.stack d))

/-! ## The search -/

section
variable {szMatch : List BYTE}

theorem takeWhile_append_of_mem {u v : List BYTE} (h : 0 ∈ u) : (u ++ v).takeWhile (· ≠ 0) = u.takeWhile (· ≠ 0) := by
  rw [List.takeWhile_append, if_neg]
  intro hlen
  rw [← (List.takeWhile_prefix _).eq_of_length hlen] at h
  have hne := List.mem_takeWhile_imp (p := fun c : BYTE => decide (c ≠ 0)) h
  exact of_decide_eq_true hne rfl

theorem takeWhile_append_of_free {u v : List BYTE} (h : 0 ∉ u) :
    (u ++ v).takeWhile (· ≠ 0) = u ++ v.takeWhile (· ≠ 0) := by
  rw [List.takeWhile_append, takeWhile_of_free h, if_pos rfl]

theorem prefix_takeWhile_iff (h0 : 0 ∉ szMatch) {s : List BYTE} :
    szMatch <+: s.takeWhile (· ≠ 0) ↔ szMatch <+: s := by
  constructor
  · exact fun h => h.trans (List.takeWhile_prefix _)
  · rintro ⟨t, rfl⟩
    rw [takeWhile_append_of_free h0]
    exact List.prefix_append ..

/-- **The search finds what stands in front of the first zero.** -/
theorem search_found (hne : szMatch ≠ []) (h0 : 0 ∉ szMatch) : ∀ {s : List BYTE},
    search szMatch s = .found ↔ szMatch <:+: s.takeWhile (· ≠ 0)
  | [] => by
    rw [search, List.takeWhile_nil, List.infix_nil]
    exact iff_of_false Search.noConfusion hne
  | c :: s => by
    rw [search]
    by_cases hp : szMatch <+: c :: s
    · rw [if_pos (List.isPrefixOf_iff_prefix.2 hp)]
      exact iff_of_true rfl ((prefix_takeWhile_iff h0).2 hp).isInfix
    · rw [if_neg fun h => hp (List.isPrefixOf_iff_prefix.1 h)]
      by_cases hc : c = 0
      · rw [if_pos hc, hc, List.takeWhile_cons_of_neg (by decide), List.infix_nil]
        exact iff_of_false Search.noConfusion hne
      · have hpos : (c :: s).takeWhile (· ≠ 0) = c :: s.takeWhile (· ≠ 0) :=
          List.takeWhile_cons_of_pos (decide_eq_true hc)
        rw [if_neg hc, search_found hne h0, hpos, List.infix_cons_iff, ← hpos, prefix_takeWhile_iff h0]
        exact (or_iff_right hp).symm

/-- **It leaves the memory when neither is there.** -/
theorem search_pastEnd : ∀ {s : List BYTE}, search szMatch s = .pastEnd ↔ 0 ∉ s ∧ search szMatch s ≠ .found
  | [] => iff_of_true rfl ⟨List.not_mem_nil, Search.noConfusion⟩
  | c :: s => by
    rw [search]
    split
    · exact iff_of_false Search.noConfusion fun h => h.2 rfl
    · split
      · rename_i hc
        exact iff_of_false Search.noConfusion fun h => h.1 (hc ▸ List.mem_cons_self)
      · rename_i hc
        rw [search_pastEnd, List.mem_cons, not_or]
        exact and_congr_left fun _ => (and_iff_right (Ne.symm hc)).symm

end

/-! ## One call -/

theorem recvfrom_bytes (s : Stack) (d : Datagram) : (s.recvfrom d).buffer.bytes = d.bytes ++ s.rest d := by
  unfold Stack.recvfrom
  dsimp only
  split <;> rfl

/-- The address and the length after `recvfrom`, as `sendto` takes them. -/
theorem recvfrom_client (s : Stack) (d : Datagram) :
    (0 ≤ (s.recvfrom d).addrLen ∧ (s.recvfrom d).clientAddr.Valid ↔ s.Sends d) ∧
      (0 ≤ s.addrLen → (s.recvfrom d).clientAddr = s.client d) := by
  unfold Stack.recvfrom
  dsimp only
  split
  · rename_i h
    exact ⟨and_congr_left fun _ => iff_of_true (Int.natCast_nonneg 16) h, fun _ => rfl⟩
  · rename_i h
    exact ⟨iff_of_false (fun hs => h hs.1) fun hs => h hs.1, fun h' => absurd h' h⟩

theorem outcome_eq (s : Stack) (d : Datagram) :
    (bcSocketCb s d).1 = match search ipFound (d.bytes ++ s.rest d) with
      | .found => if s.Sends d then .sent ipFoundAck (s.client d) else .refused
      | .absent => .silent
      | .pastEnd => .pastEnd := by
  obtain ⟨hsends, hclient⟩ := recvfrom_client s d
  unfold bcSocketCb
  dsimp only
  rw [recvfrom_bytes]
  split
  · have hreply : (ipFoundAck ++ [0] ++ (s.recvfrom d).buffer.bytes.drop 13).takeWhile (· ≠ 0) = ipFoundAck := by
      rw [takeWhile_append_of_mem (by decide)]
      decide
    by_cases h : s.Sends d
    · rw [if_pos h]
      dsimp only
      rw [if_pos (hsends.2 h), hclient h.1]
      exact congrArg (Outcome.sent · (s.client d)) hreply
    · rw [if_neg h]
      exact if_neg fun h' => h (hsends.1 h')
  · rfl
  · rfl

/-- The search stays in the datagram when there is a zero, and else goes on behind it. -/
theorem search_datagram (s : Stack) (d : Datagram) : search ipFound (d.bytes ++ s.rest d) = .found ↔
    d.Asks ∨ 0 ∉ d.bytes ∧ ipFound <:+: d.bytes ++ (s.rest d).takeWhile (· ≠ 0) := by
  rw [search_found (by decide) (by decide), Datagram.Asks]
  by_cases hz : 0 ∈ d.bytes
  · rw [takeWhile_append_of_mem hz]
    exact (or_iff_left fun h => h.1 hz).symm
  · rw [takeWhile_append_of_free hz, takeWhile_of_free hz]
    constructor
    · exact fun h => .inr ⟨hz, h⟩
    · rintro (h | ⟨-, h⟩)
      · exact h.trans (List.prefix_append ..).isInfix
      · exact h

/-- It leaves the buffer when nothing stops it there. -/
theorem search_leaves {s : Stack} {d : Datagram} (h : ¬ d.Asks) : search ipFound (d.bytes ++ s.rest d) = .pastEnd ↔
    0 ∉ d.bytes ∧ 0 ∉ s.rest d ∧ ¬ ipFound <:+: d.bytes ++ (s.rest d).takeWhile (· ≠ 0) := by
  rw [search_pastEnd, ne_eq, search_datagram, or_iff_right h, List.mem_append, not_or, and_assoc, not_and]
  exact and_congr_right fun hz => and_congr_right fun _ => ⟨fun hn => hn hz, fun hn _ => hn⟩

/-- A request is answered right when its answer can go to where it came from. -/
theorem right_request {s : Stack} {d : Datagram} (h : d.Asks) :
    (⟨d, (bcSocketCb s d).1⟩ : Call).Right ↔ s.Sends d ∧ s.client d = d.source := by
  have hout := outcome_eq s d
  rw [(search_datagram s d).2 (.inl h)] at hout
  dsimp only at hout
  constructor
  · intro hright
    have hsent := hright.answered h
    change (bcSocketCb s d).1 = _ at hsent
    rw [hout] at hsent
    split at hsent
    · rename_i hs
      exact ⟨hs, (Outcome.sent.inj hsent).2⟩
    · cases hsent
  · rintro ⟨hs, hsource⟩
    rw [if_pos hs, hsource] at hout
    rw [hout]
    exact ⟨Outcome.noConfusion, fun _ => rfl, fun hn => absurd h hn⟩

theorem right_quiet {d : Datagram} {outcome : Outcome} (h : ¬ d.Asks) : (⟨d, outcome⟩ : Call).Right ↔
    outcome ≠ .pastEnd ∧ ∀ reply client, outcome ≠ .sent reply client :=
  ⟨fun hright => ⟨hright.within, hright.quiet h⟩, fun hq => ⟨hq.1, fun ha => absurd ha h, fun _ => hq.2⟩⟩

/-- Anything else is right when the search ends in a zero first, or what it finds is not answered. -/
theorem right_else {s : Stack} {d : Datagram} (h : ¬ d.Asks) : (⟨d, (bcSocketCb s d).1⟩ : Call).Right ↔ 0 ∈ d.bytes ∨
    if ipFound <:+: d.bytes ++ (s.rest d).takeWhile (· ≠ 0) then ¬ s.Sends d else 0 ∈ s.rest d := by
  have hfound := search_datagram s d
  rw [or_iff_right h] at hfound
  have hleaves := search_leaves (s := s) h
  rw [right_quiet h, outcome_eq]
  cases hsearch : search ipFound (d.bytes ++ s.rest d) with
  | found =>
    obtain ⟨hz, hin⟩ := hfound.1 hsearch
    rw [or_iff_right hz, if_pos hin]
    by_cases hs : s.Sends d <;> simp [hs]
  | absent =>
    refine iff_of_true ⟨Outcome.noConfusion, fun _ _ => Outcome.noConfusion⟩ ?_
    by_cases hz : 0 ∈ d.bytes
    · exact .inl hz
    · have hin : ¬ ipFound <:+: d.bytes ++ (s.rest d).takeWhile (· ≠ 0) := by
        intro hin
        rw [hfound.2 ⟨hz, hin⟩] at hsearch
        cases hsearch
      rw [or_iff_right hz, if_neg hin]
      by_contra hr
      rw [hleaves.2 ⟨hz, hr, hin⟩] at hsearch
      cases hsearch
  | pastEnd =>
    obtain ⟨hz, hr, hin⟩ := hleaves.1 hsearch
    rw [or_iff_right hz, if_neg hin]
    exact iff_of_false (fun hq => hq.1 rfl) hr

/-- **A call is right exactly when the rest of the stack does not matter.** -/
theorem right_iff (s : Stack) (d : Datagram) : (⟨d, (bcSocketCb s d).1⟩ : Call).Right ↔ Decides s d := by
  unfold Decides
  split
  · rename_i h
    exact right_request h
  · rename_i h
    exact right_else h

/-! ## Runs -/

/-- All calls so far were right. -/
def State.Right (s : State) : Prop := ∀ c ∈ s.calls, c.Right

theorem next_right_iff (s : State) (a : Action) : (s.next a).Right ↔ s.Right ∧ Settled s a := by
  cases a with
  | reuse stack => exact (and_iff_left trivial).symm
  | received d =>
    rw [Settled, ← right_iff]
    exact List.forall_mem_append.trans (and_congr_right fun _ => List.forall_mem_singleton)

/-- **Every call of a run answers its own datagram exactly when, at each, what the stack held does not matter.** -/
theorem run_right_iff {s s' : State} (actions : List Action) (hinit : machine.init s)
    (hrun : machine.run s actions = some s') :
    (∀ c ∈ s'.calls, c.Right) ↔ machine.runWhen Settled s actions = some s' := by
  have hstep : ∀ s a s', machine.step s a = some s' → (s'.Right ↔ s.Right ∧ Settled s a) := by
    intro s a s' h
    obtain ⟨-, rfl⟩ := guard_some h
    exact next_right_iff s a
  have hnone : s.Right := by
    intro c hc
    rw [hinit.1] at hc
    exact absurd hc List.not_mem_nil
  exact (Machine.run_keeps_iff hstep hrun).trans (and_iff_right hnone)

/-- A client, and a stack that a call has left. -/
def client : SockAddr := ⟨[2, 0, 16, 39, 192, 168, 0, 7, 0, 0, 0, 0, 0, 0, 0, 0], rfl⟩
def start : State where
  stack := { buffer := ⟨List.replicate bufferSize 0, List.length_replicate⟩, clientAddr := client, addrLen := 16 }
  calls := []
  lost := false

def request : Datagram := ⟨ipFound, by decide, client⟩
def empty : Datagram := ⟨[], Nat.zero_le _, client⟩

theorem run_right_request : ∃ s', machine.run start [.received request] = some s' ∧ ∀ c ∈ s'.calls, c.Right :=
  ⟨start.next (.received request), rfl, (run_right_iff (s := start) [.received request] ⟨rfl, rfl⟩ rfl).2
    (if_pos (show Decides start.stack request by decide))⟩

/-- **An empty datagram behind a request is answered too**: the search finds the reply to the request. -/
theorem staleReply_not_right : ∃ s', machine.run start [.received request, .received empty] = some s' ∧
    ¬ ∀ c ∈ s'.calls, c.Right := by
  have hsecond : (bcSocketCb (bcSocketCb start.stack request).2 empty).1 = .sent ipFoundAck client := by decide
  refine ⟨(start.next (.received request)).next (.received empty), rfl, fun h => ?_⟩
  have hcall := h ⟨empty, (bcSocketCb (bcSocketCb start.stack request).2 empty).1⟩ (by simp [State.next, start])
  exact hcall.quiet (by decide) _ _ hsecond

end DevMgr.BcastServer
