import DevMgr.GlobalDef
import DevMgr.Machine
import Mathlib.Algebra.Ring.Nat
import Mathlib.Data.Fintype.Basic
/-!
# SmartDeviceAdb — the command queues of the devices and the threads that serve them

`SmartDeviceAdb.cpp`: each device has four command queues; a device with commands in queue `q` and no thread on it is
put in `_ExecList[q]` (`Request`), from where one of the threads of `q` takes it and runs its commands (`Execute`).
Each region between a lock and its unlock is one step.  A `QueueCmd` that calls `Request` holds `_CmdLock` across the
call (`CallPc`), and the calls and threads that need that lock wait for it.  `quit` and `quitPost` are `Cleanup`.

`holders d` are the references to a device held outside this module; who calls `QueueCmd` holds one until the call
returns.  The destructor runs when the count comes to 0, and with it `FlushCmds`; `publicFlush` is whether others call
it too.  `queued`, `executed` and `flushed` are the records given to `QueueCmd`, `ExecuteOne` and `FlushCmds`'s
`OnCancelled`, `events d q n` what the observer of the `n`-th record of a device queue was called with, and
`alreadyExists` whether `Request` found the device in the list.  The command objects and the observers' own counts are
left out.
-/
namespace DevMgr

open Machines

abbrev adbDevQueueCnt : Nat := 4
abbrev adbDevThreadCnt : Nat := 1 + 1 + 4 + 2

instance : NeZero adbDevQueueCnt := ⟨by decide⟩
instance (priority := high) : NeZero adbDevThreadCnt := ⟨by decide⟩

abbrev Queue := Fin adbDevQueueCnt
abbrev Thread := Fin adbDevThreadCnt

def adbCmdThreadMap : Queue → Nat
  | 0 => 1
  | 1 => 1
  | 2 => 4
  | 3 => 2

inductive DevCmdCode where
  | installApp | uninstallApp | pushFile | pullFile | labelShow | screenCap | getSysinfo | getBattinfo | getDiskinfo
  | getApplist | delFile | installInfoview | findMe
  deriving DecidableEq, Repr

def adbCmdQueueMap : DevCmdCode → Queue
  | .installApp => 2
  | .uninstallApp => 2
  | .pushFile => 3
  | .pullFile => 3
  | .labelShow => 1
  | .screenCap => 1
  | .getSysinfo => 0
  | .getBattinfo => 0
  | .getDiskinfo => 0
  | .getApplist => 1
  | .delFile => 2
  | .installInfoview => 1
  | .findMe => 1

/-- The queues that `Startup` gives to the threads it creates, in turn. -/
def startupQueues : List Queue := (List.finRange adbDevQueueCnt).flatMap fun i => List.replicate (adbCmdThreadMap i) i

theorem length_startupQueues : startupQueues.length = adbDevThreadCnt := by decide

/-- The `nQueue` of a thread. -/
def threadQueue (k : Thread) : Queue := startupQueues.get (k.cast length_startupQueues.symm)

inductive DevState where
  | off
  | booting
  | charger
  | main
  deriving DecidableEq, Repr

/-- The objects that queue commands and observe them. -/
inductive CmdObserver where
  | cmdTableMod
  | devTableMod
  | appTableMod
  deriving DecidableEq, Repr

/-- `ADB_CMD_REC`; `pRec` is the record's place among those queued to its device queue. -/
structure CmdRec where
  pRec : Nat
  dwIdx : Nat
  cmdCode : DevCmdCode
  pObserver : CmdObserver
  deriving DecidableEq, Repr

inductive CmdEvent where
  | onCancelled
  | onExecuting
  | onExecuted
  | onFailed (dwReason : Nat)
  deriving DecidableEq, Repr

/-- A `QueueCmd` inside its critical section: before `Request`'s, or before its `sem_post` if `bEmpty`. -/
inductive CallPc where
  | none
  | requesting
  | posting (bEmpty : Bool)
  deriving DecidableEq, Repr

/-- Where a `WorkThread` is: at its outer loop's test; in `sem_wait`; before it takes `_ExecLock`; with a device it
took, before `Execute`, inside it (before or after `OnExecuting` in `ExecuteOne`, or before it takes `_CmdLock` again),
or before `Release`; or out of its loop. -/
inductive WorkPc (Dev : Type) where
  | loopTest
  | waiting
  | testing
  | popped (d : Dev)
  | executeOne (d : Dev) (r : CmdRec)
  | executing (d : Dev) (r : CmdRec)
  | next (d : Dev)
  | releasing (d : Dev)
  | left
  deriving DecidableEq, Repr

structure AdbState (Dev : Type) where
  bExecQuit : Bool
  created : Dev → Bool
  lRefCnt : Dev → Nat
  holders : Dev → Nat
  deviceState : Dev → DevState
  cmdList : Dev → Queue → List CmdRec
  bRunning : Dev → Queue → Bool
  call : Dev → Queue → CallPc
  execList : Queue → List Dev
  hExecEvent : Queue → Nat
  worker : Thread → WorkPc Dev
  alreadyExists : Bool
  queued : Dev → Queue → List CmdRec
  executed : Dev → Queue → List CmdRec
  flushed : Dev → Queue → List CmdRec
  events : Dev → Queue → Nat → List CmdEvent

inductive AdbStep (Dev : Type) where
  | quit
  | quitPost (q : Queue)
  | newDevice (d : Dev)
  | addRef (d : Dev)
  | release (d : Dev)
  | updateState (d : Dev) (charger : Bool)
  | queueCmd (d : Dev) (dwCmdIdx : Nat) (cmdCode : DevCmdCode) (pObserver : CmdObserver)
  | request (d : Dev) (q : Queue)
  | post (d : Dev) (q : Queue)
  | flush (d : Dev) (q : Queue)
  | loopTest (w : Thread)
  | wait (w : Thread)
  | test (w : Thread)
  | begin (w : Thread)
  | executeOne (w : Thread)
  | finish (w : Thread) (dwRet : Nat)
  | next (w : Thread)
  | releaseDev (w : Thread)

namespace AdbState

variable {Dev : Type}

def setWorker (s : AdbState Dev) (w : Thread) (pc : WorkPc Dev) : AdbState Dev :=
  { s with worker := Function.update s.worker w pc }

@[simp] theorem setWorker_self (s : AdbState Dev) (w : Thread) (pc : WorkPc Dev) : (s.setWorker w pc).worker w = pc :=
  Function.update_self ..

theorem setWorker_of_ne (s : AdbState Dev) {w w' : Thread} (pc : WorkPc Dev) (h : w' ≠ w) :
    (s.setWorker w pc).worker w' = s.worker w' := Function.update_of_ne h ..

/-- A thread's move seen from a queue it does not serve, or that keeps its part there. -/
theorem part_setWorker {β : Type} (part : WorkPc Dev → β) {s : AdbState Dev} {w : Thread} {q : Queue} {pc : WorkPc Dev}
    (h : threadQueue w ≠ q ∨ part pc = part (s.worker w)) :
    ∀ w', threadQueue w' = q → part ((s.setWorker w pc).worker w') = part (s.worker w') := by
  intro w' hq
  by_cases hw : w' = w
  · subst hw
    rw [setWorker_self]
    exact h.resolve_left fun hn => hn hq
  · rw [setWorker_of_ne s pc hw]

variable [DecidableEq Dev]

def setCall (s : AdbState Dev) (d : Dev) (q : Queue) (pc : CallPc) : AdbState Dev :=
  { s with call := upd₂ s.call d q pc }

/-- A call of the observer of record `r`. -/
def event (s : AdbState Dev) (d : Dev) (q : Queue) (r : CmdRec) (e : CmdEvent) : AdbState Dev :=
  { s with events := upd₂ s.events d q (Function.update (s.events d q) r.pRec (s.events d q r.pRec ++ [e])) }

/-- `Release`; the destructor's `FlushCmds` are steps of their own. -/
def release (s : AdbState Dev) (d : Dev) : AdbState Dev :=
  { s with lRefCnt := Function.update s.lRefCnt d (s.lRefCnt d - 1) }

def addRef (s : AdbState Dev) (d : Dev) : AdbState Dev :=
  { s with lRefCnt := Function.update s.lRefCnt d (s.lRefCnt d + 1) }

/-- The critical section of `QueueCmd` up to its call of `Request`. -/
def queueCmd (s : AdbState Dev) (d : Dev) (q : Queue) (dwCmdIdx : Nat) (cmdCode : DevCmdCode)
    (pObserver : CmdObserver) :
    AdbState Dev :=
  let pRec : CmdRec := ⟨(s.queued d q).length, dwCmdIdx, cmdCode, pObserver⟩
  let cmds := s.cmdList d q ++ [pRec]
  { s with
    cmdList := upd₂ s.cmdList d q cmds
    queued := upd₂ s.queued d q (s.queued d q ++ [pRec])
    call := upd₂ s.call d q (if cmds.length = 1 ∧ s.bRunning d q = false then .requesting else .none) }

/-- The critical section of `Request`. -/
def request (s : AdbState Dev) (d : Dev) (q : Queue) : AdbState Dev :=
  if d ∈ s.execList q then { s.setCall d q .none with alreadyExists := true }
  else { (s.addRef d).setCall d q (.posting (s.execList q).isEmpty) with
    execList := Function.update s.execList q (s.execList q ++ [d]) }

/-- The test of `Execute`'s loop: it takes the next record, or leaves. -/
def takeCmd (s : AdbState Dev) (w : Thread) (d : Dev) (q : Queue) : AdbState Dev :=
  match s.cmdList d q with
  | [] => { s.setWorker w (.releasing d) with bRunning := upd₂ s.bRunning d q false }
  | r :: rs => { s.setWorker w (.executeOne d r) with
      cmdList := upd₂ s.cmdList d q rs, executed := upd₂ s.executed d q (s.executed d q ++ [r]) }

def setRunning (s : AdbState Dev) (d : Dev) (q : Queue) : AdbState Dev :=
  { s with bRunning := upd₂ s.bRunning d q true }

def step (publicFlush : Bool) (s : AdbState Dev) : AdbStep Dev → Option (AdbState Dev)
  | .quit => some { s with bExecQuit := true }
  | .quitPost q => if s.bExecQuit = true then
      some { s with hExecEvent := Function.update s.hExecEvent q (s.hExecEvent q + 1) } else none
  | .newDevice d => if s.created d = false then some { s with
      created := Function.update s.created d true, lRefCnt := Function.update s.lRefCnt d 1
      holders := Function.update s.holders d 1, deviceState := Function.update s.deviceState d .booting } else none
  | .addRef d => if 0 < s.holders d then
      some { s.addRef d with holders := Function.update s.holders d (s.holders d + 1) } else none
  | .release d => if 0 < s.holders d ∧ (1 < s.holders d ∨ ∀ q, s.call d q = .none) then
      some { s.release d with holders := Function.update s.holders d (s.holders d - 1) } else none
  | .updateState d charger => if 0 < s.holders d ∧ s.deviceState d = .booting then
      some { s with deviceState := Function.update s.deviceState d (if charger then .charger else .main) } else none
  | .queueCmd d dwCmdIdx cmdCode pObserver => if 0 < s.holders d ∧ s.call d (adbCmdQueueMap cmdCode) = .none then
      some (s.queueCmd d (adbCmdQueueMap cmdCode) dwCmdIdx cmdCode pObserver) else none
  | .request d q => if s.call d q = .requesting then some (s.request d q) else none
  | .post d q => match s.call d q with
    | .posting bEmpty => some { s.setCall d q .none with
        hExecEvent := if bEmpty then Function.update s.hExecEvent q (s.hExecEvent q + 1) else s.hExecEvent }
    | _ => none
  | .flush d q => if s.call d q = .none ∧ ((s.created d = true ∧ s.lRefCnt d = 0) ∨
      (publicFlush = true ∧ 0 < s.holders d)) then
      match s.cmdList d q with
      | [] => none
      | r :: rs => some { s.event d q r .onCancelled with
          cmdList := upd₂ s.cmdList d q rs, flushed := upd₂ s.flushed d q (s.flushed d q ++ [r]) }
    else none
  | .loopTest w => if s.worker w = .loopTest then some (s.setWorker w (if s.bExecQuit then .left else .waiting))
    else none
  | .wait w => if s.worker w = .waiting ∧ 0 < s.hExecEvent (threadQueue w) then
      some { s.setWorker w .testing with
        hExecEvent := Function.update s.hExecEvent (threadQueue w) (s.hExecEvent (threadQueue w) - 1) } else none
  | .test w => if s.worker w = .testing then
      match s.execList (threadQueue w) with
      | [] => some (s.setWorker w .loopTest)
      | d :: ds => some { s.setWorker w (.popped d) with execList := Function.update s.execList (threadQueue w) ds }
    else none
  | .begin w => match s.worker w with
    | .popped d => if s.call d (threadQueue w) = .none then
        some ((s.setRunning d (threadQueue w)).takeCmd w d (threadQueue w)) else none
    | _ => none
  | .executeOne w => match s.worker w with
    | .executeOne d r =>
      if s.deviceState d ≠ .main then some ((s.event d (threadQueue w) r .onCancelled).setWorker w (.next d))
      else some ((s.event d (threadQueue w) r .onExecuting).setWorker w (.executing d r))
    | _ => none
  | .finish w dwRet => match s.worker w with
    | .executing d r => some ((s.event d (threadQueue w) r
        (if dwRet ≠ errorSuccess then .onFailed dwRet else .onExecuted)).setWorker w (.next d))
    | _ => none
  | .next w => match s.worker w with
    | .next d => if s.call d (threadQueue w) = .none then some (s.takeCmd w d (threadQueue w)) else none
    | _ => none
  | .releaseDev w => match s.worker w with
    | .releasing d => some ((s.release d).setWorker w .testing)
    | _ => none

/-- The observer's call a step makes, if any, and the record it is about. -/
def callback (s : AdbState Dev) : AdbStep Dev → Option (CmdRec × CmdEvent)
  | .flush d q => match s.cmdList d q with
    | [] => none
    | r :: _ => some (r, .onCancelled)
  | .executeOne w => match s.worker w with
    | .executeOne d r => some (r, if s.deviceState d ≠ .main then .onCancelled else .onExecuting)
    | _ => none
  | .finish w dwRet => match s.worker w with
    | .executing _ r => some (r, if dwRet ≠ errorSuccess then .onFailed dwRet else .onExecuted)
    | _ => none
  | _ => none

/-- The state after `Startup`, before any device. -/
def start : AdbState Dev :=
  { bExecQuit := false, created := fun _ => false, lRefCnt := fun _ => 0, holders := fun _ => 0
    deviceState := fun _ => .off
    cmdList := fun _ _ => [], bRunning := fun _ _ => false, call := fun _ _ => .none, execList := fun _ => []
    hExecEvent := fun _ => 0, worker := fun _ => .loopTest, alreadyExists := false, queued := fun _ _ => []
    executed := fun _ _ => [], flushed := fun _ _ => [], events := fun _ _ _ => [] }

def machine (Dev : Type) [DecidableEq Dev] (publicFlush : Bool) : Machine (AdbState Dev) (AdbStep Dev) where
  init s := s = start
  step := step publicFlush

/-! ## What a step can do -/

variable {publicFlush : Bool} {s s' : AdbState Dev} {a : AdbStep Dev}

/-- **What a step can do.** -/
inductive Acts (publicFlush : Bool) (s : AdbState Dev) : AdbStep Dev → AdbState Dev → Prop
  | quit : Acts publicFlush s .quit { s with bExecQuit := true }
  | quitPost {q : Queue} (hq : s.bExecQuit = true) : Acts publicFlush s (.quitPost q)
      { s with hExecEvent := Function.update s.hExecEvent q (s.hExecEvent q + 1) }
  | newDevice {d : Dev} (hd : s.created d = false) : Acts publicFlush s (.newDevice d) { s with
      created := Function.update s.created d true, lRefCnt := Function.update s.lRefCnt d 1
      holders := Function.update s.holders d 1, deviceState := Function.update s.deviceState d .booting }
  | addRef {d : Dev} (hd : 0 < s.holders d) : Acts publicFlush s (.addRef d)
      { s.addRef d with holders := Function.update s.holders d (s.holders d + 1) }
  | release {d : Dev} (hd : 0 < s.holders d) (hl : 1 < s.holders d ∨ ∀ q, s.call d q = .none) :
      Acts publicFlush s (.release d) { s.release d with holders := Function.update s.holders d (s.holders d - 1) }
  | updateState {d : Dev} {charger : Bool} (hd : 0 < s.holders d) (hb : s.deviceState d = .booting) :
      Acts publicFlush s (.updateState d charger)
        { s with deviceState := Function.update s.deviceState d (if charger then .charger else .main) }
  | queueCmd {d : Dev} {dwCmdIdx : Nat} {cmdCode : DevCmdCode} {pObserver : CmdObserver} (hd : 0 < s.holders d)
      (hc : s.call d (adbCmdQueueMap cmdCode) = .none) : Acts publicFlush s (.queueCmd d dwCmdIdx cmdCode pObserver)
        (s.queueCmd d (adbCmdQueueMap cmdCode) dwCmdIdx cmdCode pObserver)
  | request {d : Dev} {q : Queue} (hc : s.call d q = .requesting) : Acts publicFlush s (.request d q) (s.request d q)
  | post {d : Dev} {q : Queue} {bEmpty : Bool} (hc : s.call d q = .posting bEmpty) :
      Acts publicFlush s (.post d q) { s.setCall d q .none with
        hExecEvent := if bEmpty then Function.update s.hExecEvent q (s.hExecEvent q + 1) else s.hExecEvent }
  | flush {d : Dev} {q : Queue} {r : CmdRec} {rs : List CmdRec} (hc : s.call d q = .none)
      (hf : (s.created d = true ∧ s.lRefCnt d = 0) ∨ (publicFlush = true ∧ 0 < s.holders d))
      (hm : s.cmdList d q = r :: rs) : Acts publicFlush s (.flush d q) { s.event d q r .onCancelled with
        cmdList := upd₂ s.cmdList d q rs, flushed := upd₂ s.flushed d q (s.flushed d q ++ [r]) }
  | loopTest {w : Thread} (hw : s.worker w = .loopTest) :
      Acts publicFlush s (.loopTest w) (s.setWorker w (if s.bExecQuit then .left else .waiting))
  | wait {w : Thread} (hw : s.worker w = .waiting) (ht : 0 < s.hExecEvent (threadQueue w)) :
      Acts publicFlush s (.wait w) { s.setWorker w .testing with
        hExecEvent := Function.update s.hExecEvent (threadQueue w) (s.hExecEvent (threadQueue w) - 1) }
  | testEmpty {w : Thread} (hw : s.worker w = .testing) (hl : s.execList (threadQueue w) = []) :
      Acts publicFlush s (.test w) (s.setWorker w .loopTest)
  | testPop {w : Thread} {d : Dev} {ds : List Dev} (hw : s.worker w = .testing)
      (hl : s.execList (threadQueue w) = d :: ds) : Acts publicFlush s (.test w)
        { s.setWorker w (.popped d) with execList := Function.update s.execList (threadQueue w) ds }
  | begin {w : Thread} {d : Dev} (hw : s.worker w = .popped d) (hc : s.call d (threadQueue w) = .none) :
      Acts publicFlush s (.begin w) ((s.setRunning d (threadQueue w)).takeCmd w d (threadQueue w))
  | cancel {w : Thread} {d : Dev} {r : CmdRec} (hw : s.worker w = .executeOne d r) (hd : s.deviceState d ≠ .main) :
      Acts publicFlush s (.executeOne w) ((s.event d (threadQueue w) r .onCancelled).setWorker w (.next d))
  | execute {w : Thread} {d : Dev} {r : CmdRec} (hw : s.worker w = .executeOne d r) (hd : ¬ s.deviceState d ≠ .main) :
      Acts publicFlush s (.executeOne w) ((s.event d (threadQueue w) r .onExecuting).setWorker w (.executing d r))
  | finish {w : Thread} {dwRet : Nat} {d : Dev} {r : CmdRec} (hw : s.worker w = .executing d r) :
      Acts publicFlush s (.finish w dwRet) ((s.event d (threadQueue w) r
        (if dwRet ≠ errorSuccess then .onFailed dwRet else .onExecuted)).setWorker w (.next d))
  | next {w : Thread} {d : Dev} (hw : s.worker w = .next d) (hc : s.call d (threadQueue w) = .none) :
      Acts publicFlush s (.next w) (s.takeCmd w d (threadQueue w))
  | releaseDev {w : Thread} {d : Dev} (hw : s.worker w = .releasing d) :
      Acts publicFlush s (.releaseDev w) ((s.release d).setWorker w .testing)

theorem act_some (hs : step publicFlush s a = some s') : Acts publicFlush s a s' := by
  cases a with
  | quit =>
    cases hs
    exact .quit
  | quitPost q =>
    obtain ⟨hq, rfl⟩ := guard_some hs
    exact .quitPost hq
  | newDevice d =>
    obtain ⟨hd, rfl⟩ := guard_some hs
    exact .newDevice hd
  | addRef d =>
    obtain ⟨hd, rfl⟩ := guard_some hs
    exact .addRef hd
  | release d =>
    obtain ⟨hg, rfl⟩ := guard_some hs
    exact .release hg.1 hg.2
  | updateState d charger =>
    obtain ⟨hg, rfl⟩ := guard_some hs
    exact .updateState hg.1 hg.2
  | queueCmd d dwCmdIdx cmdCode pObserver =>
    obtain ⟨hg, rfl⟩ := guard_some hs
    exact .queueCmd hg.1 hg.2
  | request d q =>
    obtain ⟨hc, rfl⟩ := guard_some hs
    exact .request hc
  | post d q =>
    simp only [step] at hs
    split at hs
    · exact Option.some.inj hs ▸ .post ‹_›
    · cases hs
  | flush d q =>
    simp only [step] at hs
    split at hs
    · rename_i hg
      split at hs
      · cases hs
      · exact Option.some.inj hs ▸ .flush hg.1 hg.2 ‹_›
    · cases hs
  | loopTest w =>
    obtain ⟨hw, rfl⟩ := guard_some hs
    exact .loopTest hw
  | wait w =>
    obtain ⟨hg, rfl⟩ := guard_some hs
    exact .wait hg.1 hg.2
  | test w =>
    simp only [step] at hs
    split at hs
    · split at hs
      · exact Option.some.inj hs ▸ .testEmpty ‹_› ‹_›
      · exact Option.some.inj hs ▸ .testPop ‹_› ‹_›
    · cases hs
  | begin w =>
    simp only [step] at hs
    split at hs
    · obtain ⟨hc, rfl⟩ := guard_some hs
      exact .begin ‹_› hc
    · cases hs
  | executeOne w =>
    simp only [step] at hs
    split at hs
    · split at hs
      · exact Option.some.inj hs ▸ .cancel ‹_› ‹_›
      · exact Option.some.inj hs ▸ .execute ‹_› ‹_›
    · cases hs
  | finish w dwRet =>
    simp only [step] at hs
    split at hs
    · exact Option.some.inj hs ▸ .finish ‹_›
    · cases hs
  | next w =>
    simp only [step] at hs
    split at hs
    · obtain ⟨hc, rfl⟩ := guard_some hs
      exact .next ‹_› hc
    · cases hs
  | releaseDev w =>
    simp only [step] at hs
    split at hs
    · exact Option.some.inj hs ▸ .releaseDev ‹_›
    · cases hs

end AdbState

end DevMgr
