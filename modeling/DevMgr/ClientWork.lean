import DevMgr.TransSockInst
/-!
# ClientWork — the work thread of a client object and who uses its transport

`MsgClient.cpp` with `TransHandler.cpp`: the work thread connects, stores the transport in `_pTransInst` without a lock,
starts it, waits, stops it, clears `_pTransInst` under `_TransLock` and deletes it, again and again.  Callers of
`SendDbMsg` hold `_TransLock` for the whole call, one at a time, and the mux thread, beside whose machine this one runs
(`mux`), calls `OnRecvReady` and in it `EndSession`.  One thread calls `Load` and `Unload` in turn.

`mine` are the transports `ConnectOut` gave, `ended` is whether `EndSession` was called since the last `Start`, and
`failed` records a failed assertion or a call on a transport that is null or deleted.
-/
namespace DevMgr

open Machines

/-- Where `WorkThread` is: not created; at the test of its outer loop; in `ConnectOut`; before its store of
`_pTransInst`, `Start`'s `OnStarted`, `Start`'s `Register`; at the test of the loop that waits, in `sem_wait`, before
`IsSessionEnd`; before `Stop`'s `Unregister`, `Stop`'s `OnStopped`, its clearing of `_pTransInst`, `FinishTransInst`; or
out of its loop. -/
inductive ClientPc (Inst : Type) where
  | none
  | loopTest
  | connecting
  | storing (x : Inst)
  | starting (x : Inst)
  | registering (x : Inst)
  | waitTest (x : Inst)
  | waiting (x : Inst)
  | endTest (x : Inst)
  | unregistering (x : Inst)
  | stopping (x : Inst)
  | clearing (x : Inst)
  | finishing (x : Inst)
  | left
  deriving DecidableEq, Repr

/-- Where the owner of the object is: `Load` to come; in it, before it creates the thread; `Unload` to come; in it,
after its store, its post and its join. -/
inductive OwnerPc where
  | unloaded
  | creating
  | loaded
  | quitting
  | joining
  | finishing
  deriving DecidableEq, Repr

/-- Where the call of `SendDbMsg` that has `_TransLock` is: before its test of `_pTransInst`, before the assertion of
`SendPDU`, before its call of `Send`, or in `Send`. -/
inductive SendPc (Inst : Type) where
  | testing
  | asserting
  | calling
  | sending (x : Inst)
  deriving DecidableEq, Repr

/-- An `EndSession` after it set the flag: before `Suspend`, or before its `sem_post`. -/
inductive SessionEndPc where
  | none
  | suspending
  | posting
  deriving DecidableEq, Repr

structure ClientWork (Inst Caller : Type) where
  mux : MuxState Inst
  bQuit : Bool
  bSessionEnd : Bool
  pEndEvent : Bool
  hWakeEvent : Nat
  pTransInst : Option Inst
  transLock : Option (Caller × SendPc Inst)
  worker : ClientPc Inst
  owner : OwnerPc
  endPc : SessionEndPc
  mine : List Inst
  ended : Bool
  failed : Bool

inductive WorkStep (Inst Caller : Type) where
  | mux (a : MuxStep Inst)
  | load
  | create (ok : Bool)
  | unload
  | unloadPost
  | join
  | fini
  | loopTest
  | connect (x : Inst) (t : SOCKET)
  | connectFails
  | store
  | start
  | register
  | waitTest
  | wait
  | endTest
  | unregister
  | stopped
  | clear
  | finish
  | lock (c : Caller)
  | sendTest
  | sendAssert
  | sendCall
  | send
  | sendDone
  | recv
  | endSession
  | endSuspend
  | endPost

namespace ClientPc

variable {Inst : Type}

/-- The transport of the round. -/
def trans : ClientPc Inst → Option Inst
  | storing x | starting x | registering x | waitTest x | waiting x | endTest x | unregistering x | stopping x
  | clearing x | finishing x => some x
  | _ => Option.none

/-- What the round has made of it. -/
def phase : ClientPc Inst → SockPhase
  | registering _ => .started
  | waitTest _ | waiting _ | endTest _ | unregistering _ => .registered
  | stopping _ => .unregistered
  | _ => .idle

/-- What the round has in `_pTransInst`. -/
def stored : ClientPc Inst → Option Inst
  | starting x | registering x | waitTest x | waiting x | endTest x | unregistering x | stopping x | clearing x =>
    some x
  | _ => Option.none

/-- In the loop that waits, or on the way to it, with no token taken. -/
def waits : ClientPc Inst → Bool
  | registering _ | waitTest _ | waiting _ => true
  | _ => false

/-- Out of that loop, with the transport still to stop or delete. -/
def leaves : ClientPc Inst → Bool
  | unregistering _ | stopping _ | clearing _ | finishing _ => true
  | _ => false

end ClientPc

/-- The thread was created and not joined. -/
def OwnerPc.threaded : OwnerPc → Bool
  | loaded | quitting | joining => true
  | _ => false

namespace ClientWork

variable {Inst Caller : Type} [DecidableEq Inst]

/-- What the other users of `TransSockInst`, and the mux thread, may do: nothing with a transport of the client, and the
mux thread does not return from `OnRecvReady` inside an `EndSession`. -/
def muxAllowed (s : ClientWork Inst Caller) : MuxStep Inst → Bool
  | .construct x _ | .start x | .register x | .unregister x | .stopped x | .destroy x | .suspend x | .resume x =>
    x ∉ s.mine
  | .recvDone => s.endPc == .none
  | _ => true

def setMux (s : ClientWork Inst Caller) (a : MuxStep Inst) : Option (ClientWork Inst Caller) :=
  (s.mux.step a).map fun mux => { s with mux := mux }

/-- The mux thread is in this client's `OnRecvReady`. -/
def recving (s : ClientWork Inst Caller) : Bool :=
  match s.mux.pc with
  | .recving x _ _ => x ∈ s.mine
  | _ => false

/-- A call of a member of `x`. -/
def call (s : ClientWork Inst Caller) (x : Inst) : ClientWork Inst Caller :=
  if (s.mux.phase x).live then s else { s with failed := true }

def step (s : ClientWork Inst Caller) : WorkStep Inst Caller → Option (ClientWork Inst Caller)
  | .mux a => if s.muxAllowed a then s.setMux a else none
  | .load => if s.owner = .unloaded then some { s with pEndEvent := true, bQuit := false, owner := .creating } else none
  | .create ok => if s.owner = .creating then
      some (if ok then { s with owner := .loaded, worker := .loopTest } else { s with owner := .finishing }) else none
  | .unload => match s.owner with
    | .loaded => some { s with bQuit := true, owner := .quitting }
    | .unloaded => some { s with owner := .finishing }
    | _ => none
  | .unloadPost => if s.owner = .quitting then
      some { s with hWakeEvent := s.hWakeEvent + 1, owner := .joining } else none
  | .join => if s.owner = .joining ∧ s.worker = .left then
      some { s with owner := .finishing, worker := .none } else none
  | .fini => if s.owner = .finishing then some { s with pEndEvent := false, owner := .unloaded } else none
  | .loopTest => if s.worker = .loopTest then
      some { s with worker := if s.bQuit then .left else .connecting } else none
  | .connect x t => if s.worker = .connecting then
      (s.setMux (.construct x t)).map fun s => { s with worker := .storing x, mine := s.mine ++ [x] } else none
  | .connectFails => if s.worker = .connecting then some { s with worker := .loopTest } else none
  | .store => match s.worker with
    | .storing x => some { s with pTransInst := some x, worker := .starting x }
    | _ => none
  | .start => match s.worker with
    | .starting x => (s.setMux (.start x)).map fun s => { s with worker := .registering x, ended := false }
    | _ => none
  | .register => match s.worker with
    | .registering x => (s.setMux (.register x)).map fun s => { s with worker := .waitTest x }
    | _ => none
  | .waitTest => match s.worker with
    | .waitTest x => some { s with worker := if s.bQuit then .unregistering x else .waiting x }
    | _ => none
  | .wait => match s.worker with
    | .waiting x => if 0 < s.hWakeEvent then
        some { s with hWakeEvent := s.hWakeEvent - 1, worker := .endTest x } else none
    | _ => none
  | .endTest => match s.worker with
    | .endTest x => some { s with worker := if s.bSessionEnd then .unregistering x else .waitTest x }
    | _ => none
  | .unregister => match s.worker with
    | .unregistering x => (s.setMux (.unregister x)).map fun s => { s with worker := .stopping x }
    | _ => none
  | .stopped => match s.worker with
    | .stopping x => (s.setMux (.stopped x)).map fun s => { s with worker := .clearing x }
    | _ => none
  | .clear => match s.worker, s.transLock with
    | .clearing x, none => some { s with pTransInst := none, worker := .finishing x }
    | _, _ => none
  | .finish => match s.worker with
    | .finishing x => (s.setMux (.destroy x)).map fun s => { s with worker := .loopTest }
    | _ => none
  | .lock c => match s.transLock with
    | none => some { s with transLock := some (c, .testing) }
    | some _ => none
  | .sendTest => match s.transLock with
    | some (c, .testing) => some { s with transLock := if s.pTransInst.isNone then none else some (c, .asserting) }
    | _ => none
  | .sendAssert => match s.transLock with
    | some (c, .asserting) => some { s with transLock := some (c, .calling), failed := s.failed || s.pTransInst.isNone }
    | _ => none
  | .sendCall => match s.transLock with
    | some (c, .calling) => match s.pTransInst with
      | some x => some { s with transLock := some (c, .sending x) }
      | none => some { s with failed := true }
    | _ => none
  | .send => match s.transLock with
    | some (_, .sending x) => some (s.call x)
    | _ => none
  | .sendDone => match s.transLock with
    | some (_, .sending _) => some { s with transLock := none }
    | _ => none
  | .recv => if s.recving = true ∧ s.endPc = .none then
      match s.pTransInst with
      | some x => some (s.call x)
      | none => some { s with failed := true }
    else none
  | .endSession => if s.recving = true ∧ s.endPc = .none then
      some { s with bSessionEnd := true, ended := true, endPc := .suspending } else none
  | .endSuspend => if s.endPc = .suspending then
      match s.pTransInst with
      | some x => if (s.mux.phase x).live then (s.setMux (.suspend x)).map fun s => { s with endPc := .posting }
        else some { s with failed := true }
      | none => some { s with failed := true }
    else none
  | .endPost => if s.endPc = .posting then
      some { s with
        hWakeEvent := if s.pEndEvent then s.hWakeEvent + 1 else s.hWakeEvent
        failed := s.failed || !s.pEndEvent, endPc := .none } else none

/-- A new object, with any use of `TransSockInst` by then. -/
def new (mux : MuxState Inst) : ClientWork Inst Caller :=
  { mux := mux, bQuit := false, bSessionEnd := false, pEndEvent := false, hWakeEvent := 0, pTransInst := none
    transLock := none, worker := .none, owner := .unloaded, endPc := .none, mine := [], ended := false
    failed := false }

def machine (Inst Caller : Type) [DecidableEq Inst] : Machine (ClientWork Inst Caller) (WorkStep Inst Caller) where
  init s := ∃ mux, (MuxState.machine Inst).Reach mux ∧ s = new mux
  step := step

theorem init_new (opened : SOCKET → Bool) : (machine Inst Caller).init (new (MuxState.start opened)) :=
  ⟨_, .init ⟨opened, rfl⟩, rfl⟩

variable {s s' : ClientWork Inst Caller} {a : WorkStep Inst Caller}

/-- **What a step can do.** -/
inductive Acts (s : ClientWork Inst Caller) : WorkStep Inst Caller → ClientWork Inst Caller → Prop
  | mux {b : MuxStep Inst} {mux : MuxState Inst} (ha : s.muxAllowed b = true) (hmux : s.mux.step b = some mux) :
      Acts s (.mux b) { s with mux := mux }
  | load (ho : s.owner = .unloaded) : Acts s .load { s with pEndEvent := true, bQuit := false, owner := .creating }
  | created (ho : s.owner = .creating) : Acts s (.create true) { s with owner := .loaded, worker := .loopTest }
  | createFails (ho : s.owner = .creating) : Acts s (.create false) { s with owner := .finishing }
  | unload (ho : s.owner = .loaded) : Acts s .unload { s with bQuit := true, owner := .quitting }
  | unloadNone (ho : s.owner = .unloaded) : Acts s .unload { s with owner := .finishing }
  | unloadPost (ho : s.owner = .quitting) :
      Acts s .unloadPost { s with hWakeEvent := s.hWakeEvent + 1, owner := .joining }
  | join (ho : s.owner = .joining) (hw : s.worker = .left) :
      Acts s .join { s with owner := .finishing, worker := .none }
  | fini (ho : s.owner = .finishing) : Acts s .fini { s with pEndEvent := false, owner := .unloaded }
  | loopTest (hw : s.worker = .loopTest) :
      Acts s .loopTest { s with worker := if s.bQuit then .left else .connecting }
  | connect {x : Inst} {t : SOCKET} {mux : MuxState Inst} (hw : s.worker = .connecting)
      (hmux : s.mux.step (.construct x t) = some mux) :
      Acts s (.connect x t) { s with mux := mux, worker := .storing x, mine := s.mine ++ [x] }
  | connectFails (hw : s.worker = .connecting) : Acts s .connectFails { s with worker := .loopTest }
  | store {x : Inst} (hw : s.worker = .storing x) :
      Acts s .store { s with pTransInst := some x, worker := .starting x }
  | start {x : Inst} {mux : MuxState Inst} (hw : s.worker = .starting x) (hmux : s.mux.step (.start x) = some mux) :
      Acts s .start { s with mux := mux, worker := .registering x, ended := false }
  | register {x : Inst} {mux : MuxState Inst} (hw : s.worker = .registering x)
      (hmux : s.mux.step (.register x) = some mux) : Acts s .register { s with mux := mux, worker := .waitTest x }
  | waitTest {x : Inst} (hw : s.worker = .waitTest x) :
      Acts s .waitTest { s with worker := if s.bQuit then .unregistering x else .waiting x }
  | wait {x : Inst} (hw : s.worker = .waiting x) (ht : 0 < s.hWakeEvent) :
      Acts s .wait { s with hWakeEvent := s.hWakeEvent - 1, worker := .endTest x }
  | endTest {x : Inst} (hw : s.worker = .endTest x) :
      Acts s .endTest { s with worker := if s.bSessionEnd then .unregistering x else .waitTest x }
  | unregister {x : Inst} {mux : MuxState Inst} (hw : s.worker = .unregistering x)
      (hmux : s.mux.step (.unregister x) = some mux) : Acts s .unregister { s with mux := mux, worker := .stopping x }
  | stopped {x : Inst} {mux : MuxState Inst} (hw : s.worker = .stopping x)
      (hmux : s.mux.step (.stopped x) = some mux) : Acts s .stopped { s with mux := mux, worker := .clearing x }
  | clear {x : Inst} (hw : s.worker = .clearing x) (hl : s.transLock = none) :
      Acts s .clear { s with pTransInst := none, worker := .finishing x }
  | finish {x : Inst} {mux : MuxState Inst} (hw : s.worker = .finishing x)
      (hmux : s.mux.step (.destroy x) = some mux) : Acts s .finish { s with mux := mux, worker := .loopTest }
  | lock (c : Caller) (hl : s.transLock = none) : Acts s (.lock c) { s with transLock := some (c, .testing) }
  | sendTest {c : Caller} (hl : s.transLock = some (c, .testing)) :
      Acts s .sendTest { s with transLock := if s.pTransInst.isNone then none else some (c, .asserting) }
  | sendAssert {c : Caller} (hl : s.transLock = some (c, .asserting)) :
      Acts s .sendAssert { s with transLock := some (c, .calling), failed := s.failed || s.pTransInst.isNone }
  | sendCall {c : Caller} {x : Inst} (hl : s.transLock = some (c, .calling)) (hx : s.pTransInst = some x) :
      Acts s .sendCall { s with transLock := some (c, .sending x) }
  | sendNull {c : Caller} (hl : s.transLock = some (c, .calling)) (hx : s.pTransInst = none) :
      Acts s .sendCall { s with failed := true }
  | send {c : Caller} {x : Inst} (hl : s.transLock = some (c, .sending x)) : Acts s .send (s.call x)
  | sendDone {c : Caller} {x : Inst} (hl : s.transLock = some (c, .sending x)) :
      Acts s .sendDone { s with transLock := none }
  | recv {x : Inst} (hr : s.recving = true) (he : s.endPc = .none) (hx : s.pTransInst = some x) :
      Acts s .recv (s.call x)
  | recvNull (hr : s.recving = true) (he : s.endPc = .none) (hx : s.pTransInst = none) :
      Acts s .recv { s with failed := true }
  | endSession (hr : s.recving = true) (he : s.endPc = .none) :
      Acts s .endSession { s with bSessionEnd := true, ended := true, endPc := .suspending }
  | endSuspend {x : Inst} {mux : MuxState Inst} (he : s.endPc = .suspending) (hx : s.pTransInst = some x)
      (hlive : (s.mux.phase x).live = true) (hmux : s.mux.step (.suspend x) = some mux) :
      Acts s .endSuspend { s with mux := mux, endPc := .posting }
  | endDeleted {x : Inst} (he : s.endPc = .suspending) (hx : s.pTransInst = some x)
      (hlive : (s.mux.phase x).live ≠ true) : Acts s .endSuspend { s with failed := true }
  | endNull (he : s.endPc = .suspending) (hx : s.pTransInst = none) : Acts s .endSuspend { s with failed := true }
  | endPost (he : s.endPc = .posting) : Acts s .endPost { s with
      hWakeEvent := if s.pEndEvent then s.hWakeEvent + 1 else s.hWakeEvent
      failed := s.failed || !s.pEndEvent, endPc := .none }

theorem map_setMux {b : MuxStep Inst} {f : ClientWork Inst Caller → ClientWork Inst Caller}
    (h : (s.setMux b).map f = some s') : ∃ mux, s.mux.step b = some mux ∧ f { s with mux := mux } = s' := by
  obtain ⟨s₁, h₁, rfl⟩ := Option.map_eq_some_iff.1 h
  obtain ⟨mux, hmux, rfl⟩ := Option.map_eq_some_iff.1 h₁
  exact ⟨mux, hmux, rfl⟩

theorem act_some (hs : step s a = some s') : Acts s a s' := by
  cases a with
  | mux b =>
    simp only [step] at hs
    split at hs
    · obtain ⟨mux, hmux, rfl⟩ := Option.map_eq_some_iff.1 hs
      exact .mux ‹_› hmux
    · cases hs
  | load =>
    obtain ⟨ho, rfl⟩ := guard_some hs
    exact .load ho
  | create ok =>
    obtain ⟨ho, rfl⟩ := guard_some hs
    cases ok with
    | true => exact .created ho
    | false => exact .createFails ho
  | unload =>
    simp only [step] at hs
    split at hs
    · exact Option.some.inj hs ▸ .unload ‹_›
    · exact Option.some.inj hs ▸ .unloadNone ‹_›
    · cases hs
  | unloadPost =>
    obtain ⟨ho, rfl⟩ := guard_some hs
    exact .unloadPost ho
  | join =>
    obtain ⟨hg, rfl⟩ := guard_some hs
    exact .join hg.1 hg.2
  | fini =>
    obtain ⟨ho, rfl⟩ := guard_some hs
    exact .fini ho
  | loopTest =>
    obtain ⟨hw, rfl⟩ := guard_some hs
    exact .loopTest hw
  | connect x t =>
    simp only [step] at hs
    split at hs
    · obtain ⟨mux, hmux, rfl⟩ := map_setMux hs
      exact .connect ‹_› hmux
    · cases hs
  | connectFails =>
    obtain ⟨hw, rfl⟩ := guard_some hs
    exact .connectFails hw
  | store =>
    simp only [step] at hs
    split at hs
    · exact Option.some.inj hs ▸ .store ‹_›
    · cases hs
  | start =>
    simp only [step] at hs
    split at hs
    · obtain ⟨mux, hmux, rfl⟩ := map_setMux hs
      exact .start ‹_› hmux
    · cases hs
  | register =>
    simp only [step] at hs
    split at hs
    · obtain ⟨mux, hmux, rfl⟩ := map_setMux hs
      exact .register ‹_› hmux
    · cases hs
  | waitTest =>
    simp only [step] at hs
    split at hs
    · exact Option.some.inj hs ▸ .waitTest ‹_›
    · cases hs
  | wait =>
    simp only [step] at hs
    split at hs
    · obtain ⟨ht, rfl⟩ := guard_some hs
      exact .wait ‹_› ht
    · cases hs
  | endTest =>
    simp only [step] at hs
    split at hs
    · exact Option.some.inj hs ▸ .endTest ‹_›
    · cases hs
  | unregister =>
    simp only [step] at hs
    split at hs
    · obtain ⟨mux, hmux, rfl⟩ := map_setMux hs
      exact .unregister ‹_› hmux
    · cases hs
  | stopped =>
    simp only [step] at hs
    split at hs
    · obtain ⟨mux, hmux, rfl⟩ := map_setMux hs
      exact .stopped ‹_› hmux
    · cases hs
  | clear =>
    simp only [step] at hs
    split at hs
    · exact Option.some.inj hs ▸ .clear ‹_› ‹_›
    · cases hs
  | finish =>
    simp only [step] at hs
    split at hs
    · obtain ⟨mux, hmux, rfl⟩ := map_setMux hs
      exact .finish ‹_› hmux
    · cases hs
  | lock c =>
    simp only [step] at hs
    split at hs
    · exact Option.some.inj hs ▸ .lock c ‹_›
    · cases hs
  | sendTest =>
    simp only [step] at hs
    split at hs
    · exact Option.some.inj hs ▸ .sendTest ‹_›
    · cases hs
  | sendAssert =>
    simp only [step] at hs
    split at hs
    · exact Option.some.inj hs ▸ .sendAssert ‹_›
    · cases hs
  | sendCall =>
    simp only [step] at hs
    split at hs
    · split at hs
      · exact Option.some.inj hs ▸ .sendCall ‹_› ‹_›
      · exact Option.some.inj hs ▸ .sendNull ‹_› ‹_›
    · cases hs
  | send =>
    simp only [step] at hs
    split at hs
    · exact Option.some.inj hs ▸ .send ‹_›
    · cases hs
  | sendDone =>
    simp only [step] at hs
    split at hs
    · exact Option.some.inj hs ▸ .sendDone ‹_›
    · cases hs
  | recv =>
    simp only [step] at hs
    split at hs
    · rename_i hg
      split at hs
      · exact Option.some.inj hs ▸ .recv hg.1 hg.2 ‹_›
      · exact Option.some.inj hs ▸ .recvNull hg.1 hg.2 ‹_›
    · cases hs
  | endSession =>
    obtain ⟨hg, rfl⟩ := guard_some hs
    exact .endSession hg.1 hg.2
  | endSuspend =>
    simp only [step] at hs
    split at hs
    · split at hs
      · split at hs
        · obtain ⟨mux, hmux, rfl⟩ := map_setMux hs
          exact .endSuspend ‹_› ‹_› ‹_› hmux
        · exact Option.some.inj hs ▸ .endDeleted ‹_› ‹_› ‹_›
      · exact Option.some.inj hs ▸ .endNull ‹_› ‹_›
    · cases hs
  | endPost =>
    obtain ⟨he, rfl⟩ := guard_some hs
    exact .endPost he

/-! ## The round's transport -/

/-- The client's transports are deleted, but for that of the round, which is what the round has made of it. -/
def Phases (mine : List Inst) (phase : Inst → SockPhase) (w : ClientPc Inst) : Prop :=
  ∀ x ∈ mine, phase x = if w.trans = some x then w.phase else .destroyed

theorem Phases.congr {mine : List Inst} {phase phase' : Inst → SockPhase} {w w' : ClientPc Inst}
    (h : Phases mine phase w) (hphase : ∀ x ∈ mine, phase' x = phase x) (ht : w'.trans = w.trans)
    (hp : w.trans ≠ none → w'.phase = w.phase) :
    Phases mine phase' w' := by
  intro x hx
  rw [hphase x hx, ht, h x hx]
  split
  · rename_i hw
    rw [hp (by rw [hw]; simp)]
  · rfl

/-- The worker's step on its transport. -/
theorem Phases.move {mine : List Inst} {phase : Inst → SockPhase} {w w' : ClientPc Inst} {x : Inst} {p : SockPhase}
    (h : Phases mine phase w) (hx : w.trans = some x)
    (hp : w'.trans = some x ∧ w'.phase = p ∨ w'.trans = none ∧ p = .destroyed) :
    Phases mine (Function.update phase x p) w' := by
  intro y hy
  by_cases hyx : y = x
  · subst hyx
    rw [Function.update_self]
    rcases hp with ⟨h1, h2⟩ | ⟨h1, h2⟩
    · rw [if_pos h1, h2]
    · rw [h1, h2, if_neg (by simp)]
  · rw [Function.update_of_ne hyx, h y hy, hx, if_neg (by simpa using Ne.symm hyx)]
    rcases hp with ⟨h1, -⟩ | ⟨h1, -⟩
    · rw [h1, if_neg (by simpa using Ne.symm hyx)]
    · rw [h1, if_neg (by simp)]

/-- What the call of `SendDbMsg` knows of `_pTransInst`. -/
def Knows (p : Option Inst) : SendPc Inst → Prop
  | .testing => True
  | .asserting | .calling => p ≠ none
  | .sending x => p = some x

structure Inv (s : ClientWork Inst Caller) : Prop where
  mux : MuxState.Inv s.mux
  phase : Phases s.mine s.mux.phase s.worker
  mine : ∀ x, s.worker.trans = some x → x ∈ s.mine
  stored : s.pTransInst = s.worker.stored
  thread : s.owner.threaded = true ↔ s.worker ≠ .none
  endEvent : s.owner = .creating ∨ s.owner.threaded = true → s.pEndEvent = true
  quit : s.owner = .quitting ∨ s.owner = .joining → s.bQuit = true
  sender : ∀ c pc, s.transLock = some (c, pc) → Knows s.pTransInst pc
  ending : s.endPc ≠ .none → s.recving = true ∧ s.ended = true
  fine : s.failed = false

theorem inv_new {mux : MuxState Inst} (h : (MuxState.machine Inst).Reach mux) :
    Inv (new mux : ClientWork Inst Caller) where
  mux := MuxState.inv_reach h
  phase := by simp [Phases, new]
  mine := by simp [new, ClientPc.trans]
  stored := rfl
  thread := by simp [new, OwnerPc.threaded]
  endEvent := by simp [new, OwnerPc.threaded]
  quit := by simp [new]
  sender := by simp [new]
  ending := by simp [new]
  fine := rfl

theorem Inv.unthreaded (h : Inv s) (ho : s.owner.threaded = false) : s.worker = .none := by
  by_contra hn
  have := h.thread.2 hn
  rw [ho] at this
  cases this

/-- **The transport that the mux thread calls this client for** is the round's, in `_pTransInst`, and not deleted. -/
theorem Inv.session (h : Inv s) (hr : s.recving = true) : ∃ x, s.worker.trans = some x ∧ s.worker.phase = .registered ∧
    s.pTransInst = some x ∧ s.mux.phase x = .registered ∧ s.pEndEvent = true := by
  unfold recving at hr
  split at hr
  · rename_i x rest fds hpc
    have hmine : x ∈ s.mine := by simpa using hr
    have hreg : s.mux.phase x = .registered := h.mux.listed.rest x (by rw [hpc]; exact List.mem_cons_self)
    have hp := h.phase x hmine
    rw [hreg] at hp
    split at hp
    · rename_i hw
      refine ⟨x, hw, hp.symm, ?_, hreg, ?_⟩
      · rw [h.stored, ← hw]
        cases hpc' : s.worker <;> rw [hpc'] at hp <;> first | rfl | cases hp
      · refine h.endEvent (.inr (h.thread.2 fun hn => ?_))
        rw [hn] at hw
        cases hw
    · cases hp
  · cases hr

theorem recving_setMux {b : MuxStep Inst} {mux : MuxState Inst} (h : s.recving = true) (hs : s.mux.step b = some mux)
    (hb : b ≠ .recvDone) : { s with mux := mux }.recving = true := by
  unfold recving at h ⊢
  split at h
  · rename_i x rest fds hpc
    rw [MuxState.recving_stays hs hpc hb, hpc]
    exact h
  · cases h

/-- A new transport does not take the mux thread out of the client's `OnRecvReady`. -/
theorem recving_mine {w : ClientPc Inst} {x : Inst} (h : s.recving = true) :
    { s with worker := w, mine := s.mine ++ [x] }.recving = true := by
  unfold recving at h ⊢
  split at h
  · rename_i y rest fds hpc
    have hy : y ∈ s.mine := by simpa using h
    simp [hpc, hy]
  · cases h

/-- The mux thread stays in an `EndSession` while the worker does something to its transport. -/
theorem Inv.ending_setMux (h : Inv s) {b : MuxStep Inst} {mux : MuxState Inst} (hs : s.mux.step b = some mux)
    (hb : b ≠ .recvDone) : s.endPc ≠ .none → { s with mux := mux }.recving = true ∧ s.ended = true := fun hn =>
  ⟨recving_setMux (h.ending hn).1 hs hb, (h.ending hn).2⟩

/-- The mux thread's machine leaves the client's transports. -/
theorem phase_foreign {b : MuxStep Inst} {mux : MuxState Inst} (hs : s.mux.step b = some mux)
    (ha : s.muxAllowed b = true) : ∀ x ∈ s.mine, mux.phase x = s.mux.phase x := by
  intro x hx
  cases hm : MuxState.moves b with
  | none => rw [MuxState.phase_stays hs hm]
  | some m =>
    obtain ⟨y, p, p'⟩ := m
    rw [(MuxState.phase_moves hs hm).2, Function.update_of_ne]
    rintro rfl
    cases b <;> cases hm
    all_goals simp [muxAllowed, hx] at ha

/-- The worker goes on, with the same transport in the same state. -/
theorem Inv.worker (h : Inv s) {v w : ClientPc Inst} (hv : s.worker = v) (ht : w.trans = v.trans)
    (hp : v.trans ≠ none → w.phase = v.phase) (hst : w.stored = v.stored) (hn : v ≠ .none) (hn' : w ≠ .none) :
    Inv { s with worker := w } := by
  subst hv
  refine { h with phase := ?_, mine := ?_, stored := h.stored.trans hst.symm, thread := ?_ }
  · exact h.phase.congr (fun _ _ => rfl) ht hp
  · rw [ht]
    exact h.mine
  · rw [h.thread]
    exact ⟨fun _ => hn', fun _ => hn⟩

/-- **The worker does something to its transport.** -/
theorem Inv.moved (h : Inv s) {b : MuxStep Inst} {mux : MuxState Inst} {v w : ClientPc Inst} {x : Inst}
    {p p' : SockPhase} (hs : s.mux.step b = some mux) (hm : MuxState.moves b = some (x, p, p')) (hb : b ≠ .recvDone)
    (hv : s.worker = v) (hx : v.trans = some x)
    (hw : w.trans = some x ∧ w.phase = p' ∨ w.trans = none ∧ p' = .destroyed) (hst : w.stored = v.stored)
    (hn : w ≠ .none) : Inv { s with mux := mux, worker := w } := by
  subst hv
  refine { h with
    mux := h.mux.step hs, phase := ?_, mine := ?_, stored := h.stored.trans hst.symm, thread := ?_
    ending := h.ending_setMux hs hb }
  · show Phases s.mine mux.phase w
    rw [(MuxState.phase_moves hs hm).2]
    exact h.phase.move hx hw
  · intro y hy
    rcases hw with ⟨h1, -⟩ | ⟨h1, -⟩
    · exact h.mine y (hx.trans (h1.symm.trans hy))
    · exact absurd (h1.symm.trans hy) (by simp)
  · rw [h.thread]
    refine ⟨fun _ => hn, fun _ hnone => ?_⟩
    rw [hnone] at hx
    cases hx

/-- **What is in `_pTransInst` is the round's transport, and not deleted.** -/
theorem Inv.live (h : Inv s) {x : Inst} (hx : s.pTransInst = some x) :
    s.worker.trans = some x ∧ (s.mux.phase x).live = true := by
  rw [h.stored] at hx
  have ht : s.worker.trans = some x := by
    cases hw : s.worker <;> rw [hw] at hx <;> first | exact hx | cases hx
  refine ⟨ht, ?_⟩
  rw [h.phase x (h.mine x ht), if_pos ht]
  cases s.worker <;> rfl

theorem Inv.call (h : Inv s) {x : Inst} (hx : s.pTransInst = some x) : s.call x = s := by
  unfold ClientWork.call
  rw [if_pos (h.live hx).2]

/-- The call of `SendDbMsg` goes on, knowing what it then has to. -/
theorem Inv.sends (h : Inv s) {c : Caller} {pc : SendPc Inst} (hk : Knows s.pTransInst pc) :
    Inv { s with transLock := some (c, pc) } := by
  refine { h with sender := ?_ }
  intro c' pc' hc
  obtain ⟨rfl, rfl⟩ := Prod.mk.inj (Option.some.inj hc)
  exact hk

/-- **Every step keeps the transport of the round alive while it can be used.** -/
theorem Inv.step (h : Inv s) (hs : step s a = some s') : Inv s' := by
  cases act_some hs with
  | mux ha hmux =>
    rename_i b mux
    refine { h with mux := h.mux.step hmux, phase := ?_, ending := ?_ }
    · exact h.phase.congr (phase_foreign hmux ha) rfl fun _ => rfl
    · intro hn
      refine h.ending_setMux hmux ?_ hn
      rintro rfl
      exact hn (by simpa [muxAllowed] using ha)
  | load ho =>
    refine { h with thread := ?_, endEvent := fun _ => rfl, quit := by simp }
    rw [← h.thread, ho]
    simp [OwnerPc.threaded]
  | created ho =>
    have hw : s.worker = .none := h.unthreaded (by rw [ho]; rfl)
    have hp := h.phase
    have hst := h.stored
    rw [hw] at hp hst
    refine { h with phase := ?_, mine := ?_, stored := hst, thread := ?_, endEvent := ?_, quit := by simp }
    · exact hp.congr (fun _ _ => rfl) rfl fun hn => absurd rfl hn
    · simp [ClientPc.trans]
    · simp [OwnerPc.threaded]
    · exact fun _ => h.endEvent (.inl ho)
  | createFails ho =>
    have hw : s.worker = .none := h.unthreaded (by rw [ho]; rfl)
    refine { h with thread := ?_, endEvent := by simp [OwnerPc.threaded], quit := by simp }
    simp [hw, OwnerPc.threaded]
  | unload ho =>
    refine { h with thread := ?_, endEvent := ?_, quit := fun _ => rfl }
    · rw [← h.thread, ho]
      rfl
    · exact fun _ => h.endEvent (.inr (by rw [ho]; rfl))
  | unloadNone ho =>
    refine { h with thread := ?_, endEvent := by simp [OwnerPc.threaded], quit := by simp }
    rw [← h.thread, ho]
    simp [OwnerPc.threaded]
  | unloadPost ho =>
    refine { h with thread := ?_, endEvent := ?_, quit := fun _ => h.quit (.inl ho) }
    · rw [← h.thread, ho]
      rfl
    · exact fun _ => h.endEvent (.inr (by rw [ho]; rfl))
  | join ho hw =>
    have hp := h.phase
    have hst := h.stored
    rw [hw] at hp hst
    refine { h with phase := ?_, mine := ?_, stored := hst, thread := ?_, endEvent := ?_, quit := by simp }
    · exact hp.congr (fun _ _ => rfl) rfl fun hn => absurd rfl hn
    · simp [ClientPc.trans]
    · simp [OwnerPc.threaded]
    · simp [OwnerPc.threaded]
  | fini ho =>
    refine { h with thread := ?_, endEvent := by simp [OwnerPc.threaded], quit := by simp }
    rw [← h.thread, ho]
    simp [OwnerPc.threaded]
  | loopTest hw =>
    split
    · exact h.worker hw rfl (fun hn => absurd rfl hn) rfl (by simp) (by simp)
    · exact h.worker hw rfl (fun hn => absurd rfl hn) rfl (by simp) (by simp)
  | connect hw hmux =>
    rename_i x t mux
    obtain ⟨-, hphase⟩ := MuxState.phase_moves hmux rfl
    have hst := h.stored
    rw [hw] at hst
    refine { h with mux := h.mux.step hmux, phase := ?_, mine := ?_, stored := hst, thread := ?_, ending := ?_ }
    · intro y hy
      show mux.phase y = _
      rw [hphase]
      by_cases hyx : y = x
      · subst hyx
        simp [ClientPc.trans, ClientPc.phase]
      · have hold : y ∈ s.mine := (List.mem_append.1 hy).resolve_right fun hn => hyx (List.mem_singleton.1 hn)
        have hd := h.phase y hold
        rw [hw] at hd
        rw [Function.update_of_ne hyx, hd]
        simp [ClientPc.trans, Ne.symm hyx]
    · simp [ClientPc.trans]
    · rw [h.thread, hw]
      simp
    · intro hn
      obtain ⟨h1, h2⟩ := h.ending_setMux hmux (by simp) hn
      exact ⟨recving_mine h1, h2⟩
  | connectFails hw => exact h.worker hw rfl (fun hn => absurd rfl hn) rfl (by simp) (by simp)
  | store hw =>
    have hst := h.stored
    have hp := h.phase
    have hm := h.mine
    rw [hw] at hst hp hm
    refine { h with phase := hp, mine := hm, stored := rfl, thread := ?_, sender := ?_ }
    · rw [h.thread, hw]
      simp
    · intro c pc hc
      have hk := h.sender c pc hc
      rw [hst] at hk
      cases pc with
      | testing => exact hk
      | asserting => exact absurd rfl hk
      | calling => exact absurd rfl hk
      | sending y => cases hk
  | start hw hmux =>
    rename_i x mux
    have hi : Inv { s with mux := mux, worker := .registering x } :=
      h.moved hmux rfl (by simp) hw rfl (.inl ⟨rfl, rfl⟩) rfl (by simp)
    refine { hi with ending := fun hn => ?_ }
    obtain ⟨y, -, hreg, -⟩ := h.session (h.ending hn).1
    rw [hw] at hreg
    cases hreg
  | register hw hmux => exact h.moved hmux rfl (by simp) hw rfl (.inl ⟨rfl, rfl⟩) rfl (by simp)
  | unregister hw hmux => exact h.moved hmux rfl (by simp) hw rfl (.inl ⟨rfl, rfl⟩) rfl (by simp)
  | stopped hw hmux => exact h.moved hmux rfl (by simp) hw rfl (.inl ⟨rfl, rfl⟩) rfl (by simp)
  | finish hw hmux => exact h.moved hmux rfl (by simp) hw rfl (.inr ⟨rfl, rfl⟩) rfl (by simp)
  | waitTest hw =>
    split
    · exact h.worker hw rfl (fun _ => rfl) rfl (by simp) (by simp)
    · exact h.worker hw rfl (fun _ => rfl) rfl (by simp) (by simp)
  | wait hw _ =>
    rename_i x _
    have hi : Inv { s with worker := .endTest x } := h.worker hw rfl (fun _ => rfl) rfl (by simp) (by simp)
    exact { hi with }
  | endTest hw =>
    split
    · exact h.worker hw rfl (fun _ => rfl) rfl (by simp) (by simp)
    · exact h.worker hw rfl (fun _ => rfl) rfl (by simp) (by simp)
  | clear hw hl =>
    have hp := h.phase
    have hm := h.mine
    rw [hw] at hp hm
    refine { h with phase := hp, mine := hm, stored := rfl, thread := ?_, sender := ?_ }
    · rw [h.thread, hw]
      simp
    · simp [hl]
  | lock c _ => exact h.sends trivial
  | sendTest hl =>
    split
    · exact { h with sender := by simp }
    · exact h.sends (by simpa [Knows, Option.isNone_iff_eq_none] using ‹¬s.pTransInst.isNone = true›)
  | sendAssert hl =>
    rename_i c
    have hk : s.pTransInst ≠ none := h.sender _ _ hl
    have hi : Inv { s with transLock := some (c, .calling) } := h.sends hk
    refine { hi with fine := ?_ }
    simpa [h.fine, Option.isSome_iff_ne_none] using hk
  | sendCall hl hx => exact h.sends hx
  | sendNull hl hx => exact absurd hx (h.sender _ _ hl)
  | send hl =>
    rw [h.call (h.sender _ _ hl)]
    exact h
  | sendDone hl => exact { h with sender := by simp }
  | recv hr _ hx =>
    rw [h.call hx]
    exact h
  | recvNull hr _ hx =>
    obtain ⟨x, -, -, hx', -⟩ := h.session hr
    cases hx.symm.trans hx'
  | endSession hr _ => exact { h with ending := fun _ => ⟨hr, rfl⟩ }
  | endSuspend he hx hlive hmux =>
    obtain ⟨hr, hend⟩ := h.ending (by rw [he]; simp)
    have hr' := recving_setMux hr hmux (by simp)
    refine { h with mux := h.mux.step hmux, phase := ?_, ending := fun _ => ⟨hr', hend⟩ }
    exact h.phase.congr (fun y _ => by rw [MuxState.phase_stays hmux rfl]) rfl fun _ => rfl
  | endDeleted _ hx hlive => exact absurd (h.live hx).2 hlive
  | endNull he hx =>
    obtain ⟨hr, -⟩ := h.ending (by rw [he]; simp)
    obtain ⟨x, -, -, hx', -⟩ := h.session hr
    cases hx.symm.trans hx'
  | endPost he =>
    obtain ⟨hr, -⟩ := h.ending (by rw [he]; simp)
    obtain ⟨-, -, -, -, -, hev⟩ := h.session hr
    exact { h with ending := fun hn => absurd rfl hn, fine := by simp [h.fine, hev] }

theorem inv_reach (h : (machine Inst Caller).Reach s) : Inv s := by
  apply h.invariant
  · rintro _ ⟨mux, hmux, rfl⟩
    exact inv_new hmux
  · exact fun _ _ _ hi hs => hi.step hs

/-- `x` is in `_pTransInst`, the transport of the worker's round, and not deleted. -/
def InUse (s : ClientWork Inst Caller) (x : Inst) : Prop :=
  s.pTransInst = some x ∧ s.worker.trans = some x ∧ (s.mux.phase x).live = true

theorem Inv.inUse (h : Inv s) {x : Inst} (hx : s.pTransInst = some x) : InUse s x := ⟨hx, h.live hx⟩

/-- **A transport is used by the round it belongs to**, and before it is deleted: by the `Send` of a `SendDbMsg`, which
finds it in `_pTransInst`, by `OnRecvReady`, and by the `Suspend` of an `EndSession`, which finds `_pEndEvent` set too;
no assertion fails. -/
theorem client_uses_live (h : (machine Inst Caller).Reach s) :
    (∀ c x, s.transLock = some (c, .sending x) → InUse s x) ∧
    (∀ c, s.transLock = some (c, .asserting) ∨ s.transLock = some (c, .calling) → ∃ x, InUse s x) ∧
    (s.recving = true ∨ s.endPc ≠ .none → s.pEndEvent = true ∧ ∃ x, InUse s x) ∧ s.failed = false := by
  have hi := inv_reach h
  refine ⟨fun c x hl => hi.inUse (hi.sender c _ hl), fun c hl => ?_, fun hr => ?_, hi.fine⟩
  · have hp : s.pTransInst ≠ none := by
      rcases hl with hl | hl
      · exact hi.sender c _ hl
      · exact hi.sender c _ hl
    obtain ⟨x, hx⟩ := Option.ne_none_iff_exists'.1 hp
    exact ⟨x, hi.inUse hx⟩
  · have hrecv : s.recving = true := hr.elim id fun hn => (hi.ending hn).1
    obtain ⟨x, -, -, hx, -, hev⟩ := hi.session hrecv
    exact ⟨hev, x, hi.inUse hx⟩

/-- A session in which the mux thread is in `EndSession` and a caller in `Send`. -/
def usingRun : List (WorkStep Nat Nat) := [.mux (.openSocket 5), .load, .create true, .loopTest, .connect 0 5, .store,
  .start, .register, .waitTest, .mux .loopTest, .mux .cleaned, .mux .lock, .mux .fdSet, .mux .built,
  .mux (.select [5] []), .mux .relock, .mux .recvReady, .recv, .lock 7, .sendTest, .sendAssert,
  .sendCall, .send, .endSession]

theorem client_uses_live_using : ∃ s : ClientWork Nat Nat,
    (machine Nat Nat).run (new (MuxState.start fun _ => false)) usingRun = some s ∧
    s.transLock = some (7, .sending 0) ∧ InUse s 0 ∧ s.endPc = .suspending ∧ s.pEndEvent = true := by
  obtain ⟨s, hs, hw⟩ := Option.map_eq_some_iff.1 (show ((machine Nat Nat).run
    (new (MuxState.start fun _ => false)) usingRun).map (fun s => (s.transLock, s.endPc)) =
      some (some (7, .sending 0), .suspending) by decide)
  obtain ⟨h1, h2⟩ := Prod.mk.inj hw
  obtain ⟨k1, -, k3, -⟩ := client_uses_live ((Machine.Reach.init (init_new _)).run hs)
  exact ⟨s, hs, h1, k1 7 0 h1, h2, (k3 (.inr (by rw [h2]; simp))).1⟩

end ClientWork

end DevMgr
