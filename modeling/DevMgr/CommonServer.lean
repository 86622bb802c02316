import DevMgr.TransSockInst
/-!
# CommonServer — the clients of the message server

`CommonServer.cpp` with the handlers of `MsgServerHandler.cpp`: the accept thread makes a record for each connection
(`CreateClientRec`), the mux thread calls the handlers and may end a session (`EndSession`), the cleanup thread takes
the records whose session ended out of `_ClientList` and frees them (`FreeClientRec`), and `Unload` stops both threads
and frees what is left.  The machine runs beside the mux thread's (`mux`), whose other instances anyone may use.

A client is named by its transport.  `accepted` are the clients, `frees` counts the calls of `FreeClientRec` and `calls`
are the calls of a client's handler: `OnStopped` and `OnRecvReady` when they start, `Fini` when it returns.  The records
are allocated, both threads were created, and `bReqDel`, which nothing sets, is left out.
-/
namespace DevMgr

open Machines

/-- The tables whose changes a handler hears of, in the order of `Init` and of `Fini`. -/
inductive Table where
  | dev
  | app
  | cmd
  deriving DecidableEq, Repr

def Table.next : Table → Option Table
  | .dev => some .app
  | .app => some .cmd
  | .cmd => none

inductive HandlerEvent where
  | init
  | onStarted
  | onRecvReady
  | onStopped
  | fini
  | deleted
  | notify
  deriving DecidableEq, Repr

/-- Where `CreateClientRec` is: before the `push_back`, `Init`, one of `Init`'s registrations, `OnStarted`, or `Start`'s
`Register`. -/
inductive CreatePc where
  | pushBack
  | init
  | observe (t : Table)
  | onStarted
  | register
  deriving DecidableEq, Repr

/-- Where `FreeClientRec` is: before `Stop`'s `Unregister`, `OnStopped`, one of `Fini`'s removals, the rest of `Fini`,
the `delete` of the handler, or `FinishTransInst`. -/
inductive FreePc where
  | unregister
  | onStopped
  | unobserve (t : Table)
  | fini
  | deleteHandler
  | finishTransInst
  deriving DecidableEq, Repr

inductive AcceptPc (Inst : Type) where
  | waiting
  | creating (x : Inst) (pc : CreatePc)
  | left
  deriving DecidableEq, Repr

/-- Where the cleanup thread is: in `sem_wait`; at the test of `_bQuit`; before `_ClientLock`; at the head of its loop
over `EndList`; in `FreeClientRec`; or out of its loop. -/
inductive CleanupPc (Inst : Type) where
  | waiting
  | testing
  | scanning
  | looping (endList : List Inst)
  | freeing (x : Inst) (pc : FreePc) (endList : List Inst)
  | left
  deriving DecidableEq, Repr

/-- Where `Unload` is: not called; joining the accept thread; before its `sem_post`; joining the cleanup thread; at the
head of its loop; in `FreeClientRec`; or returned. -/
inductive UnloadPc (Inst : Type) where
  | uncalled
  | joinAccept
  | posting
  | joinCleanup
  | looping
  | freeing (x : Inst) (pc : FreePc)
  | returned
  deriving DecidableEq, Repr

/-- An `EndSession` after it set the flag: before `Suspend`, or before its `sem_post`. -/
inductive EndPc (Inst : Type) where
  | none
  | suspending (x : Inst)
  | posting (x : Inst)
  deriving DecidableEq, Repr

def EndPc.on {Inst : Type} : EndPc Inst → Option Inst
  | .none => Option.none
  | .suspending x | .posting x => some x

structure CommonServer (Inst : Type) where
  mux : MuxState Inst
  bQuit : Bool
  hEndEvent : Nat
  clientList : List Inst
  bSessionEnd : Inst → Bool
  pEndEvent : Inst → Bool
  observerList : Table → List Inst
  notifying : Table → Option (List Inst)
  accept : AcceptPc Inst
  endPc : EndPc Inst
  cleanup : CleanupPc Inst
  unload : UnloadPc Inst
  accepted : List Inst
  frees : Inst → Nat
  calls : Inst → List HandlerEvent

inductive ServerStep (Inst : Type) where
  | mux (a : MuxStep Inst)
  | accept (x : Inst) (t : SOCKET)
  | create
  | acceptLeaves
  | endSession
  | endSuspend
  | endPost
  | cleanupWait
  | cleanupTest
  | scan
  | cleanupPop
  | cleanupFree
  | unload
  | joinedAccept
  | unloadPost
  | joinedCleanup
  | unloadPop
  | unloadFree
  | notify (t : Table)

namespace CommonServer

variable {Inst : Type} [DecidableEq Inst]

/-- What the other users of `TransSockInst`, and the mux thread, may do: nothing with a client of the server, and the
mux thread does not return from `OnRecvReady` inside an `EndSession`. -/
def muxAllowed (s : CommonServer Inst) : MuxStep Inst → Bool
  | .construct x _ | .start x | .register x | .unregister x | .stopped x | .destroy x | .suspend x | .resume x =>
    x ∉ s.accepted
  | .recvDone => s.endPc == .none
  | _ => true

/-- The client whose handler a step of the mux thread calls. -/
def recvBy (s : CommonServer Inst) : MuxStep Inst → Option Inst
  | .recvReady => match s.mux.pc with
    | .dispatching (x :: _) fds => if s.mux.sock x ∈ fds ∧ x ∈ s.accepted then some x else none
    | _ => none
  | _ => none

def setMux (s : CommonServer Inst) (a : MuxStep Inst) : Option (CommonServer Inst) :=
  (s.mux.step a).map fun mux => { s with mux := mux }

def log (s : CommonServer Inst) (x : Inst) (e : HandlerEvent) : CommonServer Inst :=
  { s with calls := Function.update s.calls x (s.calls x ++ [e]) }

def setEndEvent (s : CommonServer Inst) (x : Inst) (b : Bool) : CommonServer Inst :=
  { s with pEndEvent := Function.update s.pEndEvent x b }

/-- `RegisterObserver`. -/
def registerObserver (s : CommonServer Inst) (t : Table) (x : Inst) : CommonServer Inst :=
  if x ∈ s.observerList t then s
  else { s with observerList := Function.update s.observerList t (s.observerList t ++ [x]) }

/-- `UnregisterObserver`. -/
def unregisterObserver (s : CommonServer Inst) (t : Table) (x : Inst) : CommonServer Inst :=
  { s with observerList := Function.update s.observerList t ((s.observerList t).erase x) }

def countFree (s : CommonServer Inst) (x : Inst) : CommonServer Inst :=
  { s with frees := Function.update s.frees x (s.frees x + 1) }

/-- A step of `CreateClientRec`, and where it is then. -/
def createClientRec (s : CommonServer Inst) (x : Inst) : CreatePc → Option (CommonServer Inst × Option CreatePc)
  | .pushBack => some ({ s with clientList := s.clientList ++ [x] }, some .init)
  | .init => some ((s.setEndEvent x true).log x .init, some (.observe .dev))
  | .observe t => if s.notifying t = none then
      some (s.registerObserver t x, some (t.next.elim .onStarted CreatePc.observe)) else none
  | .onStarted => (s.setMux (.start x)).map fun s => (s.log x .onStarted, some .register)
  | .register => (s.setMux (.register x)).map fun s => (s, none)

/-- A step of `FreeClientRec`, and where it is then. -/
def freeClientRec (s : CommonServer Inst) (x : Inst) : FreePc → Option (CommonServer Inst × Option FreePc)
  | .unregister => (s.setMux (.unregister x)).map fun s => (s, some .onStopped)
  | .onStopped => (s.setMux (.stopped x)).map fun s => (s.log x .onStopped, some (.unobserve .dev))
  | .unobserve t => if s.notifying t = none then
      some (s.unregisterObserver t x, some (t.next.elim .fini FreePc.unobserve)) else none
  | .fini => some ((s.setEndEvent x false).log x .fini, some .deleteHandler)
  | .deleteHandler => some (s.log x .deleted, some .finishTransInst)
  | .finishTransInst => (s.setMux (.destroy x)).map fun s => (s, none)

def step (s : CommonServer Inst) : ServerStep Inst → Option (CommonServer Inst)
  | .mux a => if s.muxAllowed a then
      (s.setMux a).map fun s' => match s.recvBy a with
        | some x => s'.log x .onRecvReady
        | none => s'
    else none
  | .accept x t => if s.accept = .waiting then
      (s.setMux (.construct x t)).map fun s => { s with accept := .creating x .pushBack, accepted := s.accepted ++ [x] }
    else none
  | .create => match s.accept with
    | .creating x pc => (s.createClientRec x pc).map fun (s, pc) =>
        { s with accept := pc.elim .waiting (AcceptPc.creating x) }
    | _ => none
  | .acceptLeaves => if s.accept = .waiting ∧ s.bQuit = true then some { s with accept := .left } else none
  | .endSession => match s.mux.pc with
    | .recving x _ _ => if s.endPc = .none ∧ x ∈ s.accepted then
        some { s with bSessionEnd := Function.update s.bSessionEnd x true, endPc := .suspending x } else none
    | _ => none
  | .endSuspend => match s.endPc with
    | .suspending x => (s.setMux (.suspend x)).map fun s => { s with endPc := .posting x }
    | _ => none
  | .endPost => match s.endPc with
    | .posting x => some { s with
        hEndEvent := if s.pEndEvent x then s.hEndEvent + 1 else s.hEndEvent, endPc := .none }
    | _ => none
  | .cleanupWait => if s.cleanup = .waiting ∧ 0 < s.hEndEvent then
      some { s with cleanup := .testing, hEndEvent := s.hEndEvent - 1 } else none
  | .cleanupTest => if s.cleanup = .testing then
      some { s with cleanup := if s.bQuit then .left else .scanning } else none
  | .scan => if s.cleanup = .scanning then some { s with
      clientList := s.clientList.filter fun x => !s.bSessionEnd x
      cleanup := .looping (s.clientList.filter s.bSessionEnd) } else none
  | .cleanupPop => match s.cleanup with
    | .looping [] => some { s with cleanup := .waiting }
    | .looping (x :: endList) => some { s.countFree x with cleanup := .freeing x .unregister endList }
    | _ => none
  | .cleanupFree => match s.cleanup with
    | .freeing x pc endList => (s.freeClientRec x pc).map fun (s, pc) =>
        { s with cleanup := pc.elim (.looping endList) (CleanupPc.freeing x · endList) }
    | _ => none
  | .unload => if s.unload = .uncalled then some { s with bQuit := true, unload := .joinAccept } else none
  | .joinedAccept => if s.unload = .joinAccept ∧ s.accept = .left then some { s with unload := .posting } else none
  | .unloadPost => if s.unload = .posting then
      some { s with hEndEvent := s.hEndEvent + 1, unload := .joinCleanup } else none
  | .joinedCleanup => if s.unload = .joinCleanup ∧ s.cleanup = .left then some { s with unload := .looping } else none
  | .unloadPop => if s.unload = .looping then
      match s.clientList with
      | [] => some { s with unload := .returned }
      | x :: xs => some { s.countFree x with clientList := xs, unload := .freeing x .unregister }
    else none
  | .unloadFree => match s.unload with
    | .freeing x pc => (s.freeClientRec x pc).map fun (s, pc) =>
        { s with unload := pc.elim .looping (UnloadPc.freeing x) }
    | _ => none
  | .notify t => match s.notifying t with
    | none => some { s with notifying := Function.update s.notifying t (some (s.observerList t)) }
    | some [] => some { s with notifying := Function.update s.notifying t none }
    | some (x :: xs) => some { s.log x .notify with notifying := Function.update s.notifying t (some xs) }

/-- After `Load`, with any use of `TransSockInst` by then. -/
def start (mux : MuxState Inst) : CommonServer Inst :=
  { mux := mux, bQuit := false, hEndEvent := 0, clientList := [], bSessionEnd := fun _ => false
    pEndEvent := fun _ => false, observerList := fun _ => [], notifying := fun _ => none, accept := .waiting
    endPc := .none, cleanup := .waiting, unload := .uncalled, accepted := [], frees := fun _ => 0
    calls := fun _ => [] }

def machine (Inst : Type) [DecidableEq Inst] : Machine (CommonServer Inst) (ServerStep Inst) where
  init s := ∃ mux, (MuxState.machine Inst).Reach mux ∧ s = start mux
  step := step

end CommonServer

end DevMgr
