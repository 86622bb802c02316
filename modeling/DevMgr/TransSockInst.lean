import DevMgr.Machine
/-!
# TransSockInst — the mux thread and the descriptors it waits on

`TransSockInst.cpp`: `MuxThread` builds `rd_fds` from `_MuxList` under `_MuxLock`, selects on it without the lock, and
calls the handlers of the instances of the then-current list whose descriptor is in it.  A destructor gives its
descriptor to `_SocketList`, and only the mux thread closes it, when it starts a round; `Cleanup` closes the rest when
the thread is gone.

A region under a lock is one step where nothing outside can see its inside; the loops over `_MuxList`, and
`CleanupSocketList`'s, are a step for each element, since `_bIgnore` and the kernel's descriptors change meanwhile.
`opened` are the descriptors open in the process and `others` those of them that no instance has; the kernel gives a
number that is not open.  An instance is destroyed when it is not started.  `posts` are the calls between their list
update and their `sem_post`.  Of one round, `snapped` are the instances that were registered and not ignored when the
loop came to them, and `called` those whose `OnRecvReady` was called.  `Register`'s bound on the list's size is left
out.

`rd_fds` is the list of the bits that are set, those behind its `FD_SETSIZE` bits included: `FD_SET` and `FD_ISSET` do
not compare a descriptor with `FD_SETSIZE`, so one that is not below it stands for a bit of the memory behind `rd_fds`,
which holds anything when `FD_ISSET` reads it.
-/
namespace DevMgr

open Machines

abbrev SOCKET := Nat

/-- `FD_SETSIZE` of the C library. -/
def fdSetSize : Nat := 1024

/-- Where an instance is: constructed and not started; between `OnStarted` and `Register`; in `_MuxList`; between
`Unregister` and `OnStopped`. -/
inductive SockPhase where
  | absent
  | idle
  | started
  | registered
  | unregistered
  | destroyed
  deriving DecidableEq, Repr

def SockPhase.live : SockPhase → Bool
  | .absent | .destroyed => false
  | _ => true

/-- Where the mux thread is; it holds `_SocketLock` while `cleaning`, and `_MuxLock` while `building`, `dispatching` or
inside `OnRecvReady` (`recving`). -/
inductive MuxPc (Inst : Type) where
  | loopTest
  | cleaning
  | locking
  | building (rest : List Inst) (rdFds : List SOCKET) (nfds : Nat)
  | waiting
  | selecting (rdFds : List SOCKET)
  | returned (rdFds : List SOCKET)
  | dispatching (rest : List Inst) (rdFds : List SOCKET)
  | recving (x : Inst) (rest : List Inst) (rdFds : List SOCKET)
  | left
  deriving DecidableEq, Repr

namespace MuxPc

variable {Inst : Type}

def muxLocked : MuxPc Inst → Bool
  | .building .. | .dispatching .. | .recving .. => true
  | _ => false

/-- What the loop over `_MuxList` has still to visit. -/
def rest : MuxPc Inst → List Inst
  | .building rest _ _ | .dispatching rest _ => rest
  | .recving x rest _ => x :: rest
  | _ => []

/-- The `rd_fds` of the round, from its first element to the end of the dispatch. -/
def rdFds : MuxPc Inst → Option (List SOCKET)
  | .building _ fds _ | .selecting fds | .returned fds | .dispatching _ fds | .recving _ _ fds => some fds
  | _ => none

end MuxPc

structure MuxState (Inst : Type) where
  bMuxQuit : Bool
  opened : SOCKET → Bool
  others : SOCKET → Bool
  phase : Inst → SockPhase
  sock : Inst → SOCKET
  bIgnore : Inst → Bool
  muxList : List Inst
  socketList : List SOCKET
  hMuxEvent : Nat
  posts : Nat
  pc : MuxPc Inst
  snapped : List Inst
  called : List Inst

inductive MuxStep (Inst : Type) where
  | quit
  | openSocket (t : SOCKET)
  | closeSocket (t : SOCKET)
  | construct (x : Inst) (t : SOCKET)
  | start (x : Inst)
  | register (x : Inst)
  | unregister (x : Inst)
  | stopped (x : Inst)
  | destroy (x : Inst)
  | suspend (x : Inst)
  | resume (x : Inst)
  | post
  | loopTest
  | cleanup
  | cleaned
  | lock
  | fdSet
  | built
  | wait
  | select (ready behind : List SOCKET)
  | relock
  | recvReady
  | recvDone
  | dispatched

namespace MuxState

variable {Inst : Type}

def live (s : MuxState Inst) (x : Inst) : Prop := (s.phase x).live = true

variable [DecidableEq Inst]

def setPhase (s : MuxState Inst) (x : Inst) (p : SockPhase) : MuxState Inst :=
  { s with phase := Function.update s.phase x p }

def setIgnore (s : MuxState Inst) (x : Inst) (b : Bool) : MuxState Inst :=
  { s with bIgnore := Function.update s.bIgnore x b }

def step (s : MuxState Inst) : MuxStep Inst → Option (MuxState Inst)
  | .quit => some { s with bMuxQuit := true, posts := s.posts + 1 }
  | .openSocket t => if s.opened t = false then
      some { s with opened := Function.update s.opened t true, others := Function.update s.others t true } else none
  | .closeSocket t => if s.others t = true then
      some { s with opened := Function.update s.opened t false, others := Function.update s.others t false } else none
  | .construct x t => if s.phase x = .absent ∧ s.others t = true then some { (s.setPhase x .idle).setIgnore x false with
      sock := Function.update s.sock x t, others := Function.update s.others t false } else none
  | .start x => if s.phase x = .idle then some ((s.setPhase x .started).setIgnore x false) else none
  | .register x => if s.phase x = .started ∧ s.pc.muxLocked = false then some { s.setPhase x .registered with
      muxList := s.muxList ++ [x], posts := if s.muxList.isEmpty then s.posts + 1 else s.posts } else none
  | .unregister x => if s.phase x = .registered ∧ s.pc.muxLocked = false then
      some { s.setPhase x .unregistered with muxList := s.muxList.filter (· ≠ x) } else none
  | .stopped x => if s.phase x = .unregistered then some (s.setPhase x .idle) else none
  | .destroy x => if s.phase x = .idle ∧ s.pc ≠ .cleaning then
      some { s.setPhase x .destroyed with socketList := s.socketList ++ [s.sock x], posts := s.posts + 1 } else none
  | .suspend x => if (s.phase x).live then some (s.setIgnore x true) else none
  | .resume x => if (s.phase x).live then some (s.setIgnore x false) else none
  | .post => if 0 < s.posts then some { s with posts := s.posts - 1, hMuxEvent := s.hMuxEvent + 1 } else none
  | .loopTest => if s.pc = .loopTest then some { s with pc := if s.bMuxQuit then .left else .cleaning } else none
  | .cleanup => if s.pc = .cleaning ∨ s.pc = .left then
      match s.socketList with
      | [] => none
      | t :: ts => some { s with opened := Function.update s.opened t false, socketList := ts }
    else none
  | .cleaned => if s.pc = .cleaning ∧ s.socketList = [] then some { s with pc := .locking } else none
  | .lock => if s.pc = .locking then
      some { s with pc := .building s.muxList [] 0, snapped := [], called := [] } else none
  | .fdSet => match s.pc with
    | .building (x :: rest) fds nfds => some { s with
        pc := if s.bIgnore x then .building rest fds nfds else .building rest (s.sock x :: fds) (max nfds (s.sock x))
        snapped := if s.phase x = .registered ∧ s.bIgnore x = false then s.snapped ++ [x] else s.snapped }
    | _ => none
  | .built => match s.pc with
    | .building [] fds nfds => some { s with pc := if nfds = 0 then .waiting else .selecting fds }
    | _ => none
  | .wait => if s.pc = .waiting ∧ 0 < s.hMuxEvent then
      some { s with pc := .loopTest, hMuxEvent := s.hMuxEvent - 1 } else none
  | .select ready behind => match s.pc with
    | .selecting fds => if ready ⊆ fds ∧ ∀ t ∈ behind, fdSetSize ≤ t then
        some { s with pc := if ready = [] then .loopTest else .returned (ready ++ behind) }
      else none
    | _ => none
  | .relock => match s.pc with
    | .returned fds => some { s with pc := .dispatching s.muxList fds }
    | _ => none
  | .recvReady => match s.pc with
    | .dispatching (x :: rest) fds => some (if s.sock x ∈ fds then
        { s with pc := .recving x rest fds, called := s.called ++ [x] } else { s with pc := .dispatching rest fds })
    | _ => none
  | .recvDone => match s.pc with
    | .recving _ rest fds => some { s with pc := .dispatching rest fds }
    | _ => none
  | .dispatched => match s.pc with
    | .dispatching [] _ => some { s with pc := .loopTest }
    | _ => none

/-- After `Startup`, before any instance; `opened` and `others` are the descriptors the process has by then. -/
def start (opened : SOCKET → Bool) : MuxState Inst :=
  { bMuxQuit := false, opened := opened, others := opened, phase := fun _ => .absent, sock := fun _ => 0
    bIgnore := fun _ => false, muxList := [], socketList := [], hMuxEvent := 0, posts := 0, pc := .loopTest
    snapped := [], called := [] }

def machine (Inst : Type) [DecidableEq Inst] : Machine (MuxState Inst) (MuxStep Inst) where
  init s := ∃ opened, s = start opened
  step := step

/-! ## What a step can do -/

variable {s s' : MuxState Inst} {a : MuxStep Inst}

/-- **What a step can do.** -/
inductive Acts (s : MuxState Inst) : MuxStep Inst → MuxState Inst → Prop
  | quit : Acts s .quit { s with bMuxQuit := true, posts := s.posts + 1 }
  | openSocket {t : SOCKET} (ht : s.opened t = false) : Acts s (.openSocket t)
      { s with opened := Function.update s.opened t true, others := Function.update s.others t true }
  | closeSocket {t : SOCKET} (ht : s.others t = true) : Acts s (.closeSocket t)
      { s with opened := Function.update s.opened t false, others := Function.update s.others t false }
  | construct {x : Inst} {t : SOCKET} (hx : s.phase x = .absent) (ht : s.others t = true) : Acts s (.construct x t)
      { (s.setPhase x .idle).setIgnore x false with
        sock := Function.update s.sock x t, others := Function.update s.others t false }
  | start {x : Inst} (hx : s.phase x = .idle) : Acts s (.start x) ((s.setPhase x .started).setIgnore x false)
  | register {x : Inst} (hx : s.phase x = .started) (hl : s.pc.muxLocked = false) : Acts s (.register x)
      { s.setPhase x .registered with
        muxList := s.muxList ++ [x], posts := if s.muxList.isEmpty then s.posts + 1 else s.posts }
  | unregister {x : Inst} (hx : s.phase x = .registered) (hl : s.pc.muxLocked = false) :
      Acts s (.unregister x) { s.setPhase x .unregistered with muxList := s.muxList.filter (· ≠ x) }
  | stopped {x : Inst} (hx : s.phase x = .unregistered) : Acts s (.stopped x) (s.setPhase x .idle)
  | destroy {x : Inst} (hx : s.phase x = .idle) (hpc : s.pc ≠ .cleaning) : Acts s (.destroy x)
      { s.setPhase x .destroyed with socketList := s.socketList ++ [s.sock x], posts := s.posts + 1 }
  | suspend {x : Inst} (hx : (s.phase x).live = true) : Acts s (.suspend x) (s.setIgnore x true)
  | resume {x : Inst} (hx : (s.phase x).live = true) : Acts s (.resume x) (s.setIgnore x false)
  | post (ht : 0 < s.posts) : Acts s .post { s with posts := s.posts - 1, hMuxEvent := s.hMuxEvent + 1 }
  | leave (hpc : s.pc = .loopTest) (hq : s.bMuxQuit = true) : Acts s .loopTest { s with pc := .left }
  | loopTest (hpc : s.pc = .loopTest) (hq : ¬ s.bMuxQuit = true) : Acts s .loopTest { s with pc := .cleaning }
  | cleanup {t : SOCKET} {ts : List SOCKET} (hpc : s.pc = .cleaning ∨ s.pc = .left) (hl : s.socketList = t :: ts) :
      Acts s .cleanup { s with opened := Function.update s.opened t false, socketList := ts }
  | cleaned (hpc : s.pc = .cleaning) (hl : s.socketList = []) : Acts s .cleaned { s with pc := .locking }
  | lock (hpc : s.pc = .locking) : Acts s .lock { s with pc := .building s.muxList [] 0, snapped := [], called := [] }
  | fdIgnored {x : Inst} {rest : List Inst} {fds : List SOCKET} {nfds : Nat}
      (hpc : s.pc = .building (x :: rest) fds nfds) (hx : s.bIgnore x = true) :
      Acts s .fdSet { s with pc := .building rest fds nfds }
  | fdSet {x : Inst} {rest : List Inst} {fds : List SOCKET} {nfds : Nat}
      (hpc : s.pc = .building (x :: rest) fds nfds) (hx : s.bIgnore x = false) : Acts s .fdSet { s with
        pc := .building rest (s.sock x :: fds) (max nfds (s.sock x))
        snapped := if s.phase x = .registered then s.snapped ++ [x] else s.snapped }
  | blocks {fds : List SOCKET} (hpc : s.pc = .building [] fds 0) : Acts s .built { s with pc := .waiting }
  | built {fds : List SOCKET} {nfds : Nat} (hpc : s.pc = .building [] fds nfds) (h0 : nfds ≠ 0) :
      Acts s .built { s with pc := .selecting fds }
  | wait (hpc : s.pc = .waiting) (ht : 0 < s.hMuxEvent) :
      Acts s .wait { s with pc := .loopTest, hMuxEvent := s.hMuxEvent - 1 }
  | timeout {fds behind : List SOCKET} (hpc : s.pc = .selecting fds) :
      Acts s (.select [] behind) { s with pc := .loopTest }
  | select {fds ready behind : List SOCKET} (hpc : s.pc = .selecting fds) (hsub : ready ⊆ fds)
      (hbehind : ∀ t ∈ behind, fdSetSize ≤ t) (hne : ready ≠ []) :
      Acts s (.select ready behind) { s with pc := .returned (ready ++ behind) }
  | relock {fds : List SOCKET} (hpc : s.pc = .returned fds) : Acts s .relock { s with pc := .dispatching s.muxList fds }
  | recvReady {x : Inst} {rest : List Inst} {fds : List SOCKET} (hpc : s.pc = .dispatching (x :: rest) fds)
      (hx : s.sock x ∈ fds) : Acts s .recvReady { s with pc := .recving x rest fds, called := s.called ++ [x] }
  | notReady {x : Inst} {rest : List Inst} {fds : List SOCKET} (hpc : s.pc = .dispatching (x :: rest) fds)
      (hx : s.sock x ∉ fds) : Acts s .recvReady { s with pc := .dispatching rest fds }
  | recvDone {x : Inst} {rest : List Inst} {fds : List SOCKET} (hpc : s.pc = .recving x rest fds) :
      Acts s .recvDone { s with pc := .dispatching rest fds }
  | dispatched {fds : List SOCKET} (hpc : s.pc = .dispatching [] fds) : Acts s .dispatched { s with pc := .loopTest }

theorem act_some (hs : step s a = some s') : Acts s a s' := by
  cases a with
  | quit =>
    cases hs
    exact .quit
  | openSocket t =>
    obtain ⟨ht, rfl⟩ := guard_some hs
    exact .openSocket ht
  | closeSocket t =>
    obtain ⟨ht, rfl⟩ := guard_some hs
    exact .closeSocket ht
  | construct x t =>
    obtain ⟨hg, rfl⟩ := guard_some hs
    exact .construct hg.1 hg.2
  | start x =>
    obtain ⟨hx, rfl⟩ := guard_some hs
    exact .start hx
  | register x =>
    obtain ⟨hg, rfl⟩ := guard_some hs
    exact .register hg.1 hg.2
  | unregister x =>
    obtain ⟨hg, rfl⟩ := guard_some hs
    exact .unregister hg.1 hg.2
  | stopped x =>
    obtain ⟨hx, rfl⟩ := guard_some hs
    exact .stopped hx
  | destroy x =>
    obtain ⟨hg, rfl⟩ := guard_some hs
    exact .destroy hg.1 hg.2
  | suspend x =>
    obtain ⟨hx, rfl⟩ := guard_some hs
    exact .suspend hx
  | resume x =>
    obtain ⟨hx, rfl⟩ := guard_some hs
    exact .resume hx
  | post =>
    obtain ⟨ht, rfl⟩ := guard_some hs
    exact .post ht
  | loopTest =>
    obtain ⟨hpc, rfl⟩ := guard_some hs
    split
    · exact .leave hpc ‹_›
    · exact .loopTest hpc ‹_›
  | cleanup =>
    simp only [step] at hs
    split at hs
    · split at hs
      · cases hs
      · exact Option.some.inj hs ▸ .cleanup ‹_› ‹_›
    · cases hs
  | cleaned =>
    obtain ⟨hg, rfl⟩ := guard_some hs
    exact .cleaned hg.1 hg.2
  | lock =>
    obtain ⟨hpc, rfl⟩ := guard_some hs
    exact .lock hpc
  | fdSet =>
    simp only [step] at hs
    split at hs
    · rename_i x rest fds nfds hpc
      obtain rfl := Option.some.inj hs
      cases hi : s.bIgnore x with
      | true =>
        simp only [if_true, Bool.true_eq_false, and_false, if_false]
        exact .fdIgnored hpc hi
      | false =>
        simp only [Bool.false_eq_true, if_false, and_true]
        exact .fdSet hpc hi
    · cases hs
  | built =>
    simp only [step] at hs
    split at hs
    · rename_i fds nfds hpc
      obtain rfl := Option.some.inj hs
      split
      · rename_i h0
        subst h0
        exact .blocks hpc
      · exact .built hpc ‹_›
    · cases hs
  | wait =>
    obtain ⟨hg, rfl⟩ := guard_some hs
    exact .wait hg.1 hg.2
  | select ready behind =>
    simp only [step] at hs
    split at hs
    · rename_i fds hpc
      obtain ⟨hg, rfl⟩ := guard_some hs
      split
      · rename_i h0
        subst h0
        exact .timeout hpc
      · exact .select hpc hg.1 hg.2 ‹_›
    · cases hs
  | relock =>
    simp only [step] at hs
    split at hs
    · exact Option.some.inj hs ▸ .relock ‹_›
    · cases hs
  | recvReady =>
    simp only [step] at hs
    split at hs
    · obtain rfl := Option.some.inj hs
      split
      · exact .recvReady ‹_› ‹_›
      · exact .notReady ‹_› ‹_›
    · cases hs
  | recvDone =>
    simp only [step] at hs
    split at hs
    · exact Option.some.inj hs ▸ .recvDone ‹_›
    · cases hs
  | dispatched =>
    simp only [step] at hs
    split at hs
    · exact Option.some.inj hs ▸ .dispatched ‹_›
    · cases hs

/-! ## Who has a descriptor -/

/-- **Every open descriptor has one owner**: an instance, `_SocketList`, or code that has no instance for it. -/
structure Socks (s : MuxState Inst) : Prop where
  own : ∀ x, s.live x → s.opened (s.sock x) = true ∧ s.others (s.sock x) = false ∧ s.sock x ∉ s.socketList
  inj : ∀ x y, s.live x → s.live y → s.sock x = s.sock y → x = y
  list : ∀ t ∈ s.socketList, s.opened t = true ∧ s.others t = false
  nodup : s.socketList.Nodup
  others : ∀ t, s.others t = true → s.opened t = true

theorem live_setPhase {x y : Inst} {p : SockPhase} :
    (s.setPhase x p).live y ↔ (y = x ∧ p.live = true) ∨ (y ≠ x ∧ s.live y) := by
  unfold live setPhase
  by_cases hy : y = x
  · simp [hy]
  · simp [hy]

theorem live_setPhase_same {x y : Inst} {p : SockPhase} (h : p.live = (s.phase x).live) :
    (s.setPhase x p).live y ↔ s.live y := by
  rw [live_setPhase]
  by_cases hy : y = x
  · simp [hy, h, live]
  · simp [hy]

omit [DecidableEq Inst] in
/-- A step that leaves the descriptors with their owners. -/
theorem Socks.congr (h : Socks s) (hl : ∀ x, s'.live x ↔ s.live x) (h1 : s'.sock = s.sock) (h2 : s'.opened = s.opened)
    (h3 : s'.others = s.others) (h4 : s'.socketList = s.socketList) : Socks s' := by
  constructor
  · intro x hx
    rw [h1, h2, h3, h4]
    exact h.own x ((hl x).1 hx)
  · intro x y hx hy
    rw [h1]
    exact h.inj x y ((hl x).1 hx) ((hl y).1 hy)
  · rw [h2, h3, h4]
    exact h.list
  · rw [h4]
    exact h.nodup
  · rw [h2, h3]
    exact h.others

omit [DecidableEq Inst] in
/-- A descriptor that no instance has and that is not in `_SocketList` is opened or closed. -/
theorem Socks.foreign (h : Socks s) {t : SOCKET} (hlive : ∀ x, s.live x → s.sock x ≠ t) (hlist : t ∉ s.socketList)
    (b : Bool) : Socks { s with
      opened := Function.update s.opened t b, others := Function.update s.others t b } := by
  constructor
  · intro x hx
    obtain ⟨h1, h2, h3⟩ := h.own x hx
    simp [Function.update_of_ne (hlive x hx), h1, h2, h3]
  · exact h.inj
  · intro u hu
    obtain ⟨h1, h2⟩ := h.list u hu
    have hne : u ≠ t := by
      rintro rfl
      exact hlist hu
    simp [Function.update_of_ne hne, h1, h2]
  · exact h.nodup
  · intro u hu
    by_cases he : u = t
    · simp only [he, Function.update_self] at hu ⊢
      exact hu
    · simp only [Function.update_of_ne he] at hu ⊢
      exact h.others u hu

theorem Socks.construct (h : Socks s) {x : Inst} {t : SOCKET} (hx : s.phase x = .absent) (ht : s.others t = true) :
    Socks { (s.setPhase x .idle).setIgnore x false with
      sock := Function.update s.sock x t, others := Function.update s.others t false } := by
  have hold : ∀ y, s.live y → y ≠ x ∧ s.sock y ≠ t := by
    intro y hy
    constructor
    · rintro rfl
      rw [live, hx] at hy
      cases hy
    · intro he
      have := (h.own y hy).2.1
      rw [he, ht] at this
      cases this
  have hlist : t ∉ s.socketList := by
    intro hm
    have := (h.list t hm).2
    rw [ht] at this
    cases this
  constructor
  · intro y hy
    rcases live_setPhase.1 hy with ⟨rfl, -⟩ | ⟨hne, hy⟩
    · simp [setIgnore, setPhase, h.others t ht, hlist]
    · obtain ⟨h1, h2, h3⟩ := h.own y hy
      simp [setIgnore, setPhase, Function.update_of_ne hne, Function.update_of_ne (hold y hy).2, h1, h2, h3]
  · intro y z hy hz he
    rcases live_setPhase.1 hy with ⟨rfl, -⟩ | ⟨hy', hly⟩
    · rcases live_setPhase.1 hz with ⟨rfl, -⟩ | ⟨hz', hlz⟩
      · rfl
      · exact absurd (by simpa [Function.update_of_ne hz'] using he.symm) (hold z hlz).2
    · rcases live_setPhase.1 hz with ⟨rfl, -⟩ | ⟨hz', hlz⟩
      · exact absurd (by simpa [Function.update_of_ne hy'] using he) (hold y hly).2
      · exact h.inj y z hly hlz (by simpa [Function.update_of_ne hy', Function.update_of_ne hz'] using he)
  · intro u hu
    obtain ⟨h1, h2⟩ := h.list u hu
    have hne : u ≠ t := by
      rintro rfl
      exact hlist hu
    simp [setIgnore, setPhase, Function.update_of_ne hne, h1, h2]
  · exact h.nodup
  · intro u hu
    by_cases he : u = t
    · simp [he] at hu
    · exact h.others u (by simpa [Function.update_of_ne he] using hu)

/-- The destructor of `TransSockInst` gives the descriptor to `_SocketList`. -/
theorem Socks.destroy (h : Socks s) {x : Inst} (hx : s.live x) :
    Socks { s.setPhase x .destroyed with socketList := s.socketList ++ [s.sock x], posts := s.posts + 1 } := by
  obtain ⟨h1, h2, h3⟩ := h.own x hx
  have hlive : ∀ y, (s.setPhase x .destroyed).live y → y ≠ x ∧ s.live y := fun y hy =>
    (live_setPhase.1 hy).resolve_left fun hn => by cases hn.2
  constructor
  · intro y hy
    obtain ⟨hne, hy⟩ := hlive y hy
    obtain ⟨h4, h5, h6⟩ := h.own y hy
    refine ⟨h4, h5, ?_⟩
    simp only [List.mem_append, List.mem_singleton, not_or]
    exact ⟨h6, fun he => hne (h.inj y x hy hx he)⟩
  · exact fun y z hy hz => h.inj y z (hlive y hy).2 (hlive z hz).2
  · intro t ht
    rcases List.mem_append.1 ht with ht | ht
    · exact h.list t ht
    · rw [List.mem_singleton.1 ht]
      exact ⟨h1, h2⟩
  · exact h.nodup.append (List.nodup_singleton _) (List.disjoint_singleton.2 h3)
  · exact h.others

omit [DecidableEq Inst] in
theorem Socks.cleanup (h : Socks s) {t : SOCKET} {ts : List SOCKET} (hl : s.socketList = t :: ts) :
    Socks { s with opened := Function.update s.opened t false, socketList := ts } := by
  have hnd := h.nodup
  rw [hl, List.nodup_cons] at hnd
  have hnot : ∀ u, s.others u = true ∨ u ∈ ts ∨ (∃ x, s.live x ∧ s.sock x = u) → u ≠ t := by
    rintro u hu rfl
    have htl : u ∈ s.socketList := by rw [hl]; exact List.mem_cons_self
    rcases hu with hu | hu | ⟨x, hx, rfl⟩
    · rw [(h.list u htl).2] at hu
      cases hu
    · exact hnd.1 hu
    · exact (h.own x hx).2.2 htl
  constructor
  · intro x hx
    obtain ⟨h1, h2, h3⟩ := h.own x hx
    rw [hl, List.mem_cons, not_or] at h3
    exact ⟨(Function.update_of_ne (hnot _ (.inr (.inr ⟨x, hx, rfl⟩))) ..).trans h1, h2, h3.2⟩
  · exact h.inj
  · intro u hu
    obtain ⟨h1, h2⟩ := h.list u (by rw [hl]; exact List.mem_cons_of_mem _ hu)
    exact ⟨(Function.update_of_ne (hnot u (.inr (.inl hu))) ..).trans h1, h2⟩
  · exact hnd.2
  · intro u hu
    exact (Function.update_of_ne (hnot u (.inl hu)) ..).trans (h.others u hu)

theorem Socks.step (h : Socks s) (hs : step s a = some s') : Socks s' := by
  cases act_some hs with
  | @openSocket t ht =>
    -- the number was not open, so nobody has it
    have hne : ∀ u, s.opened u = true → u ≠ t := by
      rintro u hu rfl
      rw [ht] at hu
      cases hu
    exact h.foreign (fun x hx => hne _ (h.own x hx).1) (fun hm => hne t (h.list t hm).1 rfl) true
  | @closeSocket t ht =>
    have hne : ∀ u, s.others u = false → u ≠ t := by
      rintro u hu rfl
      rw [ht] at hu
      cases hu
    exact h.foreign (fun x hx => hne _ (h.own x hx).2.1) (fun hm => hne t (h.list t hm).2 rfl) false
  | construct hx ht => exact h.construct hx ht
  | destroy hx _ =>
    refine h.destroy ?_
    rw [live, hx]
    rfl
  | cleanup _ hl => exact h.cleanup hl
  | start hx | register hx _ | unregister hx _ | stopped hx =>
    exact h.congr (fun y => live_setPhase_same (by rw [hx]; rfl)) rfl rfl rfl rfl
  | _ => exact h.congr (fun _ => .rfl) rfl rfl rfl rfl

/-! ## The round -/

/-- `_MuxList` holds the instances that are registered, and a loop over it visits only those. -/
structure Listed (s : MuxState Inst) : Prop where
  list : ∀ x, x ∈ s.muxList ↔ s.phase x = .registered
  rest : ∀ x ∈ s.pc.rest, s.phase x = .registered

/-- **No descriptor of the round's instances is closed before the dispatch is over**, so what is in the bits of
`rd_fds` is theirs. -/
structure Round (s : MuxState Inst) : Prop where
  known : ∀ x ∈ s.snapped, s.phase x ≠ .absent
  inj : ∀ x ∈ s.snapped, ∀ y ∈ s.snapped, s.sock x = s.sock y → x = y
  pinned : ∀ fds, s.pc.rdFds = some fds → ∀ x ∈ s.snapped, s.live x ∨ s.sock x ∈ s.socketList
  fds : ∀ fds, s.pc.rdFds = some fds → ∀ t ∈ fds, t < fdSetSize → ∃ x ∈ s.snapped, s.sock x = t

omit [DecidableEq Inst] in
theorem Listed.congr (h : Listed s) (h1 : s'.muxList = s.muxList) (h2 : s'.phase = s.phase)
    (h3 : ∀ x ∈ s'.pc.rest, x ∈ s.pc.rest ∨ x ∈ s.muxList) : Listed s' := by
  constructor
  · rw [h1, h2]
    exact h.list
  · intro x hx
    rw [h2]
    rcases h3 x hx with hx | hx
    · exact h.rest x hx
    · exact (h.list x).1 hx

omit [DecidableEq Inst] in
theorem rest_unlocked {pc : MuxPc Inst} (h : pc.muxLocked = false) : pc.rest = [] := by
  cases pc <;> first | rfl | cases h

/-- A phase change that is not into or out of `_MuxList`. -/
theorem Listed.setPhase (h : Listed s) {x : Inst} {p : SockPhase} (hx : s.phase x ≠ .registered)
    (hp : p ≠ .registered) :
    Listed (s.setPhase x p) := by
  constructor
  · intro y
    by_cases hy : y = x
    · subst hy
      simp [MuxState.setPhase, h.list, hx, hp]
    · simp [MuxState.setPhase, Function.update_of_ne hy, h.list]
  · intro y hy
    have hy' := h.rest y hy
    by_cases he : y = x
    · subst he
      exact absurd hy' hx
    · simpa [MuxState.setPhase, Function.update_of_ne he] using hy'

theorem Listed.step (h : Listed s) (hs : step s a = some s') : Listed s' := by
  cases act_some hs with
  | @register x hx hl =>
    constructor
    · intro y
      by_cases hy : y = x
      · simp [MuxState.setPhase, hy]
      · simp [MuxState.setPhase, hy, h.list]
    · intro y hy
      have hy : y ∈ s.pc.rest := hy
      rw [rest_unlocked hl] at hy
      cases hy
  | @unregister x hx hl =>
    constructor
    · intro y
      by_cases hy : y = x
      · simp [MuxState.setPhase, hy]
      · simp [MuxState.setPhase, hy, h.list]
    · intro y hy
      have hy : y ∈ s.pc.rest := hy
      rw [rest_unlocked hl] at hy
      cases hy
  | @construct x t hx _ =>
    have := h.setPhase (x := x) (p := .idle) (by simp [hx]) (by simp)
    exact ⟨this.list, this.rest⟩
  | @start x hx =>
    have := h.setPhase (x := x) (p := .started) (by simp [hx]) (by simp)
    exact ⟨this.list, this.rest⟩
  | stopped hx => exact h.setPhase (by simp [hx]) (by simp)
  | @destroy x hx _ =>
    have := h.setPhase (x := x) (p := .destroyed) (by simp [hx]) (by simp)
    exact ⟨this.list, this.rest⟩
  | lock _ | relock _ => exact h.congr rfl rfl fun _ hx => .inr hx
  | recvReady hpc _ =>
    refine h.congr rfl rfl fun y hy => .inl ?_
    rw [hpc]
    exact hy
  | fdIgnored hpc _ | fdSet hpc _ | notReady hpc _ | recvDone hpc =>
    refine h.congr rfl rfl fun y hy => .inl ?_
    rw [hpc]
    exact List.mem_cons_of_mem _ hy
  | quit | openSocket _ | closeSocket _ | suspend _ | resume _ | post _ | cleanup _ _ =>
    exact h.congr rfl rfl fun _ hx => .inl hx
  | _ => exact h.congr rfl rfl fun _ hx => by cases hx

omit [DecidableEq Inst] in
/-- A step that keeps the round's instances, and closes no descriptor of theirs. -/
theorem Round.congr (h : Round s) (hsnap : s'.snapped = s.snapped)
    (hsock : ∀ x ∈ s.snapped, s'.sock x = s.sock x) (hknown : ∀ x, s.phase x ≠ .absent → s'.phase x ≠ .absent)
    (hpin : ∀ x, s.live x ∨ s.sock x ∈ s.socketList → s'.live x ∨ s.sock x ∈ s'.socketList)
    (hfds : ∀ fds', s'.pc.rdFds = some fds' →
      ∃ fds, s.pc.rdFds = some fds ∧ ∀ t ∈ fds', t < fdSetSize → t ∈ fds) : Round s' := by
  constructor
  · intro x hx
    rw [hsnap] at hx
    exact hknown x (h.known x hx)
  · intro x hx y hy he
    rw [hsnap] at hx hy
    rw [hsock x hx, hsock y hy] at he
    exact h.inj x hx y hy he
  · intro fds' hf x hx
    rw [hsnap] at hx
    obtain ⟨fds, hf, -⟩ := hfds fds' hf
    rw [hsock x hx]
    exact hpin x (h.pinned fds hf x hx)
  · intro fds' hf t ht hbit
    obtain ⟨fds, hf, hsub⟩ := hfds fds' hf
    obtain ⟨x, hx, he⟩ := h.fds fds hf t (hsub t ht hbit) hbit
    exact ⟨x, by rwa [hsnap], by rw [hsock x hx, he]⟩

theorem known_setPhase {x y : Inst} {p : SockPhase} (hp : p ≠ .absent) (hy : s.phase y ≠ .absent) :
    (s.setPhase x p).phase y ≠ .absent := by
  by_cases he : y = x
  · simpa [MuxState.setPhase, he] using hp
  · simpa [MuxState.setPhase, he] using hy

omit [DecidableEq Inst] in
/-- **A readiness found in `rd_fds` for the descriptor of a live instance is its own.** -/
theorem Round.own (h : Round s) (hk : Socks s) {fds : List SOCKET} {x : Inst} (hf : s.pc.rdFds = some fds)
    (hx : s.live x) (hm : s.sock x ∈ fds) (hbit : s.sock x < fdSetSize) : x ∈ s.snapped := by
  obtain ⟨y, hy, he⟩ := h.fds fds hf _ hm hbit
  rcases h.pinned fds hf y hy with hl | hl
  · rwa [← hk.inj y x hl hx he]
  · rw [he] at hl
    exact absurd hl (hk.own x hx).2.2

omit [DecidableEq Inst] in
/-- `FD_SET` of the descriptor of an instance that is registered. -/
theorem Round.fdSet (h : Round s) (hk : Socks s) {fds : List SOCKET} (hf : s.pc.rdFds = some fds) {x : Inst}
    (hx : s.phase x = .registered) (rest : List Inst) (nfds : Nat) : Round { s with
      pc := .building rest (s.sock x :: fds) nfds, snapped := s.snapped ++ [x] } := by
  have hlive : s.live x := by
    rw [live, hx]
    rfl
  have hown : ∀ y ∈ s.snapped, s.sock y = s.sock x → y = x := by
    intro y hy he
    rcases h.pinned fds hf y hy with hy | hy
    · exact hk.inj y x hy hlive he
    · rw [he] at hy
      exact absurd hy (hk.own x hlive).2.2
  constructor
  · intro y hy
    rcases List.mem_append.1 hy with hy | hy
    · exact h.known y hy
    · rw [List.mem_singleton.1 hy, hx]
      simp
  · intro y hy z hz he
    rcases List.mem_append.1 hy with hy | hy
    · rcases List.mem_append.1 hz with hz | hz
      · exact h.inj y hy z hz he
      · rw [List.mem_singleton.1 hz] at he ⊢
        exact hown y hy he
    · rw [List.mem_singleton.1 hy] at he ⊢
      rcases List.mem_append.1 hz with hz | hz
      · exact (hown z hz he.symm).symm
      · exact (List.mem_singleton.1 hz).symm
  · intro f _ y hy
    rcases List.mem_append.1 hy with hy | hy
    · exact h.pinned fds hf y hy
    · rw [List.mem_singleton.1 hy]
      exact .inl hlive
  · rintro f ⟨⟩ t ht hbit
    rcases List.mem_cons.1 ht with rfl | ht
    · exact ⟨x, List.mem_append_right _ List.mem_cons_self, rfl⟩
    · obtain ⟨y, hy, he⟩ := h.fds fds hf t ht hbit
      exact ⟨y, List.mem_append_left _ hy, he⟩

theorem Round.step (h : Round s) (hk : Socks s) (hl : Listed s) (hs : step s a = some s') : Round s' := by
  have hsame : ∀ fds', s.pc.rdFds = some fds' →
      ∃ fds, s.pc.rdFds = some fds ∧ ∀ t ∈ fds', t < fdSetSize → t ∈ fds := fun fds hf => ⟨fds, hf, fun _ ht _ => ht⟩
  have hgo : ∀ {fds fds' : List SOCKET}, s.pc.rdFds = some fds → (∀ t ∈ fds', t < fdSetSize → t ∈ fds) →
      ∀ f, some fds' = some f → ∃ fds, s.pc.rdFds = some fds ∧ ∀ t ∈ f, t < fdSetSize → t ∈ fds := by
    rintro fds fds' hf hsub f ⟨⟩
    exact ⟨fds, hf, hsub⟩
  cases act_some hs with
  | @construct x t hx _ =>
    refine h.congr rfl (fun y hy => ?_) (fun y => known_setPhase (by simp))
      (fun y => Or.imp_left fun hy => live_setPhase.2 (.inr ⟨?_, hy⟩)) hsame
    · refine Function.update_of_ne ?_ ..
      rintro rfl
      exact h.known y hy hx
    · rintro rfl
      rw [live, hx] at hy
      cases hy
  | start hx | register hx _ | unregister hx _ | stopped hx =>
    exact h.congr rfl (fun _ _ => rfl) (fun y => known_setPhase (by simp))
      (fun y => Or.imp_left fun hy => (live_setPhase_same (by rw [hx]; rfl)).2 hy) hsame
  | @destroy x _ _ =>
    refine h.congr rfl (fun _ _ => rfl) (fun y => known_setPhase (by simp)) ?_ hsame
    -- what it was is in `_SocketList` now
    rintro y (hy | hy)
    · by_cases he : y = x
      · subst he
        exact .inr (List.mem_append_right _ (List.mem_singleton.2 rfl))
      · exact .inl (live_setPhase.2 (.inr ⟨he, hy⟩))
    · exact .inr (List.mem_append_left _ hy)
  | cleanup hpc _ =>
    have hno : s.pc.rdFds = none := by obtain hpc | hpc := hpc <;> rw [hpc] <;> rfl
    exact ⟨h.known, h.inj, fun _ hf => (nomatch hno.symm.trans hf), fun _ hf => (nomatch hno.symm.trans hf)⟩
  | lock _ => exact ⟨nofun, nofun, fun _ _ => nofun, by rintro fds ⟨⟩ t ht; cases ht⟩
  | fdIgnored hpc _ | notReady hpc _ | built hpc _ | relock hpc | recvDone hpc | recvReady hpc _ =>
    exact h.congr rfl (fun _ _ => rfl) (fun _ => id) (fun _ => id) (hgo (by rw [hpc]; rfl) fun _ ht _ => ht)
  | @fdSet x rest fds nfds hpc _ =>
    have hx : s.phase x = .registered := hl.rest x (by rw [hpc]; exact List.mem_cons_self)
    rw [if_pos hx]
    exact h.fdSet hk (by rw [hpc]; rfl) hx rest _
  | @select fds ready behind hpc hsub hbehind _ =>
    refine h.congr rfl (fun _ _ => rfl) (fun _ => id) (fun _ => id) (hgo (by rw [hpc]; rfl) fun t ht hbit => ?_)
    rcases List.mem_append.1 ht with ht | ht
    · exact hsub ht
    · exact absurd (hbehind t ht) (Nat.not_le_of_lt hbit)
  | leave _ _ | loopTest _ _ | cleaned _ _ | blocks _ | wait _ _ | timeout _ | dispatched _ =>
    exact h.congr rfl (fun _ _ => rfl) (fun _ => id) (fun _ => id) nofun
  | _ => exact h.congr rfl (fun _ _ => rfl) (fun _ => id) (fun _ => id) hsame

/-! ## What a step does to an instance -/

/-- The instance whose phase a step changes, the phase it is in and the one it comes to. -/
def moves : MuxStep Inst → Option (Inst × SockPhase × SockPhase)
  | .construct x _ => some (x, .absent, .idle)
  | .start x => some (x, .idle, .started)
  | .register x => some (x, .started, .registered)
  | .unregister x => some (x, .registered, .unregistered)
  | .stopped x => some (x, .unregistered, .idle)
  | .destroy x => some (x, .idle, .destroyed)
  | _ => none

theorem phase_moves {x : Inst} {p p' : SockPhase} (hs : step s a = some s') (hm : moves a = some (x, p, p')) :
    s.phase x = p ∧ s'.phase = Function.update s.phase x p' := by
  cases act_some hs with
  | construct hx _ | start hx | register hx _ | unregister hx _ | stopped hx | destroy hx _ =>
    cases hm
    exact ⟨hx, rfl⟩
  | _ => cases hm

theorem phase_stays (hs : step s a = some s') (hm : moves a = none) : s'.phase = s.phase := by
  cases act_some hs with
  | construct _ _ | start _ | register _ _ | unregister _ _ | stopped _ | destroy _ _ => cases hm
  | _ => rfl

/-- Inside `OnRecvReady` the mux thread goes nowhere else. -/
theorem recving_stays {x : Inst} {rest : List Inst} {fds : List SOCKET} (hs : step s a = some s')
    (hpc : s.pc = .recving x rest fds) (ha : a ≠ .recvDone) : s'.pc = s.pc := by
  cases act_some hs with
  | recvDone _ => exact absurd rfl ha
  | leave hpc' _ | loopTest hpc' _ | cleaned hpc' _ | lock hpc' | fdIgnored hpc' _ | fdSet hpc' _ | blocks hpc'
  | built hpc' _ | wait hpc' _ | timeout hpc' | select hpc' _ _ _ | relock hpc' | recvReady hpc' _ | notReady hpc' _
  | dispatched hpc' => cases hpc.symm.trans hpc'
  | _ => rfl

/-! ## Every run -/

structure Inv (s : MuxState Inst) : Prop where
  socks : Socks s
  listed : Listed s
  round : Round s

omit [DecidableEq Inst] in
theorem inv_start (opened : SOCKET → Bool) : Inv (start opened : MuxState Inst) where
  socks := ⟨nofun, nofun, nofun, List.nodup_nil, fun _ h => h⟩
  listed := ⟨by simp [start], nofun⟩
  round := ⟨nofun, nofun, nofun, nofun⟩

theorem Inv.step (h : Inv s) (hs : step s a = some s') : Inv s' :=
  ⟨h.socks.step hs, h.listed.step hs, h.round.step h.socks h.listed hs⟩

theorem inv_reach (h : (machine Inst).Reach s) : Inv s :=
  Machine.Reach.invariant (by rintro s ⟨opened, rfl⟩; exact inv_start opened) (fun _ _ _ hi hs => hi.step hs) h

/-! ## Whose handler is called -/

/-- **The descriptors that `MuxThread` gives to `FD_SET` and `FD_ISSET` are below `FD_SETSIZE`.** -/
def InFdSet (s : MuxState Inst) : MuxStep Inst → Prop
  | .fdSet => ∀ x ∈ s.pc.rest.head?, s.bIgnore x = false → s.sock x < fdSetSize
  | .recvReady => ∀ x ∈ s.pc.rest.head?, s.sock x < fdSetSize
  | _ => True

instance (s : MuxState Inst) : (a : MuxStep Inst) → Decidable (InFdSet s a)
  | .fdSet => inferInstanceAs (Decidable (∀ x ∈ s.pc.rest.head?, s.bIgnore x = false → s.sock x < fdSetSize))
  | .recvReady => inferInstanceAs (Decidable (∀ x ∈ s.pc.rest.head?, s.sock x < fdSetSize))
  | .quit | .openSocket _ | .closeSocket _ | .construct _ _ | .start _ | .register _ | .unregister _ | .stopped _
  | .destroy _ | .suspend _ | .resume _ | .post | .loopTest | .cleanup | .cleaned | .lock | .built | .wait
  | .select _ _ | .relock | .recvDone | .dispatched => .isTrue trivial

/-- The instances called in the round were in its snapshot. -/
def Attributed (s : MuxState Inst) : Prop := ∀ x ∈ s.called, x ∈ s.snapped

theorem Attributed.step (h : Attributed s) (hi : Inv s) (hok : InFdSet s a) (hs : step s a = some s') :
    Attributed s' := by
  cases act_some hs with
  | lock _ => exact nofun
  | @fdSet x _ _ _ _ _ =>
    intro y hy
    show y ∈ if _ then s.snapped ++ [x] else s.snapped
    split
    · exact List.mem_append_left _ (h y hy)
    · exact h y hy
  | @recvReady x rest fds hpc hm =>
    intro y hy
    rcases List.mem_append.1 hy with hy | hy
    · exact h y hy
    · rw [List.mem_singleton.1 hy]
      have hrest : s.pc.rest = x :: rest := by rw [hpc]; rfl
      have hlive : s.live x := by
        rw [live, hi.listed.rest x (by rw [hrest]; exact List.mem_cons_self)]
        rfl
      exact hi.round.own hi.socks (by rw [hpc]; rfl) hlive hm (hok x (by rw [hrest]; rfl))
  | _ => exact h

/-- **Readiness is never attributed to another connection**: in the runs whose descriptors are below `FD_SETSIZE` an
instance whose handler is called was registered and not ignored when the round's `rd_fds` was built, and no other
instance that was had its descriptor number. -/
theorem recv_ready_own (h : (machine Inst).ReachWhen InFdSet s) {x : Inst} (hx : x ∈ s.called) :
    x ∈ s.snapped ∧ ∀ y ∈ s.snapped, s.sock y = s.sock x → y = x := by
  have hall : Inv s ∧ Attributed s := by
    refine Machine.ReachWhen.invariant (I := fun s => Inv s ∧ Attributed s) ?_ ?_ h
    · rintro s ⟨opened, rfl⟩
      exact ⟨inv_start opened, nofun⟩
    · exact fun _ _ _ hi hok hs => ⟨hi.1.step hs, hi.2.step hi.1 hok hs⟩
  exact ⟨hall.2 x hx, fun y hy he => hall.1.round.inj y hy x (hall.2 x hx) he⟩

/-- Between the snapshot and the dispatch one of two instances is destroyed and a third takes a new descriptor. -/
def reuseRun : List (MuxStep Nat) := [.openSocket 5, .construct 0 5, .openSocket 6, .construct 1 6, .start 0,
  .register 0, .start 1, .register 1, .loopTest, .cleaned, .lock, .fdSet, .fdSet, .built, .unregister 0, .stopped 0,
  .destroy 0, .openSocket 7, .construct 2 7, .start 2, .register 2, .select [5, 6] [], .relock, .recvReady]

theorem recv_ready_own_reuse : ∃ s, (machine Nat).runWhen InFdSet (start fun _ => false) reuseRun = some s ∧
    s.called = [1] ∧ 1 ∈ s.snapped ∧ ∀ y ∈ s.snapped, s.sock y = s.sock 1 → y = 1 := by
  obtain ⟨s, hs, hc⟩ := Option.map_eq_some_iff.1
    (show ((machine Nat).runWhen InFdSet (start fun _ => false) reuseRun).map MuxState.called = some [1] by decide)
  have hr : (machine Nat).ReachWhen InFdSet s := .runWhen (.init ⟨_, rfl⟩) hs
  obtain ⟨h1, h2⟩ := recv_ready_own hr (show 1 ∈ s.called by rw [hc]; exact List.mem_cons_self)
  exact ⟨s, hs, hc, h1, h2⟩

/-- While the mux thread selects on one instance another is registered that has a descriptor from `FD_SETSIZE` on. -/
def behindRun : List (MuxStep Nat) := [.openSocket 5, .construct 0 5, .start 0, .register 0, .loopTest, .cleaned, .lock,
  .fdSet, .built, .openSocket 1030, .construct 1 1030, .start 1, .register 1, .select [5] [1030], .relock, .recvReady,
  .recvDone, .recvReady]

/-- **A bit behind `rd_fds`**: `FD_ISSET` finds it set and the handler of an instance is called that was in no
snapshot. -/
theorem recv_ready_behind : ∃ s, (machine Nat).run (start fun _ => false) behindRun = some s ∧ 1 ∈ s.called ∧
    1 ∉ s.snapped := by
  obtain ⟨s, hs, hc⟩ := Option.map_eq_some_iff.1
    (show ((machine Nat).run (start fun _ => false) behindRun).map (fun s => (s.called, s.snapped)) =
      some ([0, 1], [0]) by decide)
  obtain ⟨h1, h2⟩ := Prod.mk.inj hc
  exact ⟨s, hs, by simp [h1], by simp [h2]⟩

end MuxState

end DevMgr
