import DevMgr.LockOrder
import DevMgr.MsgServerHandler
import DevMgr.SmartDeviceAdb
/-!
# LockUse — the mutexes of libdevmgr and the calls that take them

A function of the library that takes a mutex, or calls one that does, is the list of its operations on the mutexes,
with its callbacks written in where they are called.  What its lists hold and how its branches go are arguments: the
observers, the devices and the clients there are, the records in a queue, whether a reference is the last.

The table observers are `MsgServerHandler`s, whose `Notify` sends a PDU and takes no mutex; so do the virtual members
of `TransHandler` except `ProcessPDU`, `Init` and `Fini`, and `ProcessDbMsg` of a client.  A thread is in one of the
calls of `LockCall` at a time and holds no mutex between two of them; a `MsgClient` waits for the end of its session
between `clientStart` and `clientStop`.  Semaphores, joins and sockets are not waited for under a mutex, but for a
`select` with a timeout.
-/
namespace DevMgr

open Machines LockOrders

/-- What is counted by a `PObject`: a device, or an observer of devices and commands. -/
inductive RefObject (Dev : Type) where
  | device (d : Dev)
  | observer (pObserver : CmdObserver)
  deriving DecidableEq

/-- `client` is a `MsgClient` of the process. -/
inductive DevMutex (Dev : Type) where
  | muxLock
  | socketLock
  | transLock
  | clientLock
  | centerObserverLock
  | centerDeviceLock
  | cmdLock (d : Dev) (nQueue : Queue)
  | execLock (nQueue : Queue)
  | tableObserverLock (t : DbTable)
  | hDbLock
  | mtpDeviceLock
  | clientTransLock (client : Nat)
  | refLock (o : RefObject Dev)
  deriving DecidableEq

abbrev LockTrace (Dev : Type) := List (LockOp (DevMutex Dev))

/-- A record as a work thread runs it: the state its device is in, what `GetMtpDevice` finds where the command asks,
what `Execute` returns, and the applications of a listing. -/
structure CmdRun where
  pRec : CmdRec
  deviceState : DevState
  mtpFound : Bool
  dwRet : Nat
  apps : Nat

/-- What a `Release` finds when it drops the last reference: the records in the queues of the device. -/
abbrev LastRef := Option (Queue → List CmdRec)

/-- A `GetDevice` that finds a device: whether `QueueCmd` calls `Request`, and the `Release`. -/
structure FoundDevice (Dev : Type) where
  pDevice : Dev
  requests : Bool
  last : LastRef

/-- A row of `op_requests`; `ConvertArgs` may refuse it. -/
structure RequestRow (Dev : Type) where
  found : Option (FoundDevice Dev)
  cmdCode : Option DevCmdCode

/-- What `ProcessDbMsg` is called for. -/
inductive DbRequest (Dev : Type) where
  | cmdTabUpdated
  | updateSysInfo (found : Option (FoundDevice Dev))
  | updateBattInfo (found : Option (FoundDevice Dev))
  | updateDiskInfo (found : Option (FoundDevice Dev))
  | updateAppList (found : Option (FoundDevice Dev))
  | findMe (found : Option (FoundDevice Dev))

namespace LockUse

variable {Dev : Type}

/-! ## The tables -/

def execSql : LockTrace Dev := within .hDbLock []

def beginGetTable : LockTrace Dev := within .hDbLock []

/-- `RegisterObserver` and `UnregisterObserver` of `DbTableBase`. -/
def registerTable (t : DbTable) : LockTrace Dev := within (.tableObserverLock t) []

def notify (t : DbTable) : LockTrace Dev := within (.tableObserverLock t) []

def updateResult : LockTrace Dev := execSql ++ notify .cmdTable

/-- The calls of a `CmdObserver`. -/
def onCmdEvent (pObserver : CmdObserver) (cmdCode : DevCmdCode) (apps : Nat) : CmdEvent → LockTrace Dev
  | .onExecuting => match pObserver with
    | .cmdTableMod => execSql ++ notify .cmdTable
    | .devTableMod | .appTableMod => []
  | .onExecuted => match pObserver with
    | .cmdTableMod => updateResult
    | .devTableMod => match cmdCode with
      | .getSysinfo | .getBattinfo | .getDiskinfo => execSql ++ notify .devTable
      | _ => []
    | .appTableMod => if cmdCode = .getApplist then
        execSql ++ ((List.range apps).flatMap fun _ => execSql) ++ notify .appTable else []
  | .onFailed _ | .onCancelled => match pObserver with
    | .cmdTableMod => updateResult
    | .devTableMod | .appTableMod => []

/-! ## A device and its queues -/

def addRef (o : RefObject Dev) : LockTrace Dev := within (.refLock o) []

/-- `Release` of an observer: its destructor takes no mutex. -/
def releaseObserver (pObserver : CmdObserver) : LockTrace Dev := within (.refLock (.observer pObserver)) []

def freeCmdRec (pRec : CmdRec) : LockTrace Dev := releaseObserver pRec.pObserver

def request (d : Dev) (nQueue : Queue) : LockTrace Dev := within (.execLock nQueue) (addRef (.device d))

def queueCmd (d : Dev) (cmdCode : DevCmdCode) (pObserver : CmdObserver) (requests : Bool) : LockTrace Dev :=
  addRef (.observer pObserver) ++ within (.cmdLock d (adbCmdQueueMap cmdCode))
    (if requests = true then request d (adbCmdQueueMap cmdCode) else [])

def flushCmds (d : Dev) (records : Queue → List CmdRec) : LockTrace Dev :=
  (List.finRange adbDevQueueCnt).flatMap fun i => yielding (.cmdLock d i)
    ((records i).map fun pRec => onCmdEvent pRec.pObserver pRec.cmdCode 0 .onCancelled ++ freeCmdRec pRec)

/-- `Release` of a device; the last one destroys it, and it flushes its queues. -/
def release (d : Dev) (last : LastRef) : LockTrace Dev :=
  within (.refLock (.device d)) [] ++ match last with
    | none => []
    | some records => flushCmds d records

def getMtpDevice : LockTrace Dev := within .mtpDeviceLock []

def releaseMtpDevice : LockTrace Dev := within .mtpDeviceLock []

/-- `Execute` of the command: a push tries `MtpSendFile`. -/
def cmdExecute (run : CmdRun) : LockTrace Dev :=
  if run.pRec.cmdCode = .pushFile then getMtpDevice ++ (if run.mtpFound = true then releaseMtpDevice else []) else []

def executeOne (run : CmdRun) : LockTrace Dev :=
  let event := onCmdEvent run.pRec.pObserver run.pRec.cmdCode run.apps
  if run.deviceState ≠ .main then event .onCancelled
  else event .onExecuting ++ cmdExecute run ++
    (if run.dwRet ≠ errorSuccess then event (.onFailed run.dwRet) else event .onExecuted)

def execute (d : Dev) (nQueue : Queue) (runs : List CmdRun) : LockTrace Dev :=
  yielding (.cmdLock d nQueue) (runs.map fun run => executeOne run ++ freeCmdRec run.pRec)

/-- What a work thread does with the devices in its list after `sem_wait`. -/
def workThread (nQueue : Queue) (devices : List (Dev × List CmdRun × LastRef)) : LockTrace Dev :=
  yielding (.execLock nQueue) (devices.map fun x => execute x.1 nQueue x.2.1 ++ release x.1 x.2.2)

/-! ## DeviceCenter -/

def onAttached : CmdObserver → LockTrace Dev
  | .devTableMod => execSql ++ notify .devTable
  | .cmdTableMod | .appTableMod => []

def onDetached : CmdObserver → LockTrace Dev
  | .devTableMod => execSql ++ notify .devTable
  | .cmdTableMod | .appTableMod => []

/-- `requests` tells of each `QueueCmd` whether it calls `Request`. -/
def onStateChanged (d : Dev) (state : DevState) (requests : DevCmdCode → Bool) : CmdObserver → LockTrace Dev
  | .devTableMod => execSql ++ notify .devTable ++ (if state = .main then
      queueCmd d .getSysinfo .devTableMod (requests .getSysinfo) ++
        queueCmd d .getBattinfo .devTableMod (requests .getBattinfo) ++
        queueCmd d .getDiskinfo .devTableMod (requests .getDiskinfo) else [])
  | .cmdTableMod | .appTableMod => []

def onDeviceAttached (d : Dev) (observers : List CmdObserver) : LockTrace Dev :=
  within .centerDeviceLock [] ++ addRef (.device d) ++ within .centerObserverLock (observers.flatMap onAttached)

def onDeviceDetached (d : Dev) (last : LastRef) (observers : List CmdObserver) : LockTrace Dev :=
  within .centerDeviceLock [] ++ release d last ++ within .centerObserverLock (observers.flatMap onDetached)

def onDeviceStateChanged (d : Dev) (state : DevState) (requests : DevCmdCode → Bool) (observers : List CmdObserver) :
    LockTrace Dev :=
  within .centerObserverLock (observers.flatMap (onStateChanged d state requests))

/-- The second section calls `OnAttached` for each device there is. -/
def registerObserver (pObserver : CmdObserver) (devices : List Dev) : LockTrace Dev :=
  within .centerObserverLock [] ++ addRef (.observer pObserver) ++
    within .centerDeviceLock (devices.flatMap fun _ => onAttached pObserver)

def unregisterObserver (pObserver : CmdObserver) : LockTrace Dev :=
  within .centerObserverLock [] ++ releaseObserver pObserver

def getDevice (found : Option (FoundDevice Dev)) : LockTrace Dev :=
  within .centerDeviceLock (match found with
    | none => []
    | some f => addRef (.device f.pDevice))

/-! ## The requests of a client -/

/-- `UpdateSysInfo` and its like, by the id of a device. -/
def update (cmdCode : DevCmdCode) (pObserver : CmdObserver) (found : Option (FoundDevice Dev)) : LockTrace Dev :=
  getDevice found ++ match found with
    | none => []
    | some f => queueCmd f.pDevice cmdCode pObserver f.requests ++ release f.pDevice f.last

def processDbMsg : DbRequest Dev → LockTrace Dev
  | .cmdTabUpdated => []
  | .updateSysInfo found => update .getSysinfo .devTableMod found
  | .updateBattInfo found => update .getBattinfo .devTableMod found
  | .updateDiskInfo found => update .getDiskinfo .devTableMod found
  | .updateAppList found => update .getApplist .appTableMod found
  | .findMe found => update .findMe .devTableMod found

def processCmd (row : RequestRow Dev) : LockTrace Dev :=
  getDevice row.found ++
    (match row.found, row.cmdCode with
      | some f, some cmdCode => queueCmd f.pDevice cmdCode .cmdTableMod f.requests
      | _, _ => []) ++
    execSql ++ notify .cmdTable ++
    (match row.found with
      | some f => release f.pDevice f.last
      | none => [])

def probeCmds (rows : List (RequestRow Dev)) : LockTrace Dev := beginGetTable ++ rows.flatMap processCmd

/-! ## The transports -/

def register : LockTrace Dev := within .muxLock []

def unregister : LockTrace Dev := within .muxLock []

def closeSocket : LockTrace Dev := within .socketLock []

/-- `CleanupSocketList`, in `Cleanup`. -/
def sockCleanup : LockTrace Dev := within .socketLock []

def onRecvReady (pdus : List (DbRequest Dev)) : LockTrace Dev := pdus.flatMap processDbMsg

/-- A round of `MuxThread`: `CleanupSocketList`, the loop that fills the set, and the one over the ready transports. -/
def muxThread (ready : List (List (DbRequest Dev))) : LockTrace Dev :=
  within .socketLock [] ++ within .muxLock [] ++ within .muxLock (ready.flatMap onRecvReady)

def bindTransHandler : LockTrace Dev := within .transLock []

def finishTransInst : LockTrace Dev := within .transLock [] ++ closeSocket

/-- `Init` and `Fini` of a `MsgServerHandler`. -/
def handlerInit : LockTrace Dev := registerTable .devTable ++ registerTable .appTable ++ registerTable .cmdTable

def handlerFini : LockTrace Dev := registerTable .devTable ++ registerTable .appTable ++ registerTable .cmdTable

def createClientRec : LockTrace Dev := within .clientLock [] ++ handlerInit ++ register

def freeClientRec : LockTrace Dev := unregister ++ handlerFini ++ finishTransInst

/-- `WaitConnectIn` and `CreateClientRec`, in `AcceptThread`. -/
def acceptThread : LockTrace Dev := bindTransHandler ++ createClientRec

/-- A round of `CleanupThread` that finds `ended` records. -/
def cleanupThread (ended : Nat) : LockTrace Dev :=
  within .clientLock [] ++ (List.range ended).flatMap fun _ => freeClientRec

def serverUnload (clients : Nat) : LockTrace Dev :=
  yielding .clientLock ((List.range clients).map fun _ => freeClientRec)

/-! ## A client -/

/-- `SendPDU` with a timeout, or a return when there is no session. -/
def sendDbMsg (client : Nat) : LockTrace Dev := within (.clientTransLock client) []

/-- `ConnectOut` that succeeds, and `Start`, in `WorkThread`. -/
def clientStart : LockTrace Dev := bindTransHandler ++ register

/-- What `WorkThread` does when the session is over. -/
def clientStop (client : Nat) : LockTrace Dev := unregister ++ within (.clientTransLock client) [] ++ finishTransInst

/-- `ProcessDevices` of `MtpDeviceMon`. -/
def mtpProcessDevices : LockTrace Dev := within .mtpDeviceLock [] ++ within .mtpDeviceLock []

/-- `Unload` of `MtpDeviceMon`. -/
def mtpUnload : LockTrace Dev := within .mtpDeviceLock []

end LockUse

/-- The calls that the threads of the library are in. -/
inductive LockCall (Dev : Type) where
  | muxThread (ready : List (List (DbRequest Dev)))
  | workThread (nQueue : Queue) (devices : List (Dev × List CmdRun × LastRef))
  | probeCmds (rows : List (RequestRow Dev))
  | onDeviceAttached (d : Dev) (observers : List CmdObserver)
  | onDeviceDetached (d : Dev) (last : LastRef) (observers : List CmdObserver)
  | addRef (o : RefObject Dev)
  | release (d : Dev) (last : LastRef)
  | releaseObserver (pObserver : CmdObserver)
  | onDeviceStateChanged (d : Dev) (state : DevState) (requests : DevCmdCode → Bool) (observers : List CmdObserver)
  | registerObserver (pObserver : CmdObserver) (devices : List Dev)
  | unregisterObserver (pObserver : CmdObserver)
  | execSql
  | acceptThread
  | cleanupThread (ended : Nat)
  | serverUnload (clients : Nat)
  | sendDbMsg (client : Nat)
  | clientStart
  | clientStop (client : Nat)
  | sockCleanup
  | mtpProcessDevices
  | mtpUnload

namespace LockUse

variable {Dev : Type}

def trace : LockCall Dev → LockTrace Dev
  | .muxThread ready => muxThread ready
  | .workThread nQueue devices => workThread nQueue devices
  | .probeCmds rows => probeCmds rows
  | .onDeviceAttached d observers => onDeviceAttached d observers
  | .onDeviceDetached d last observers => onDeviceDetached d last observers
  | .addRef o => addRef o
  | .release d last => release d last
  | .releaseObserver pObserver => releaseObserver pObserver
  | .onDeviceStateChanged d state requests observers => onDeviceStateChanged d state requests observers
  | .registerObserver pObserver devices => registerObserver pObserver devices
  | .unregisterObserver pObserver => unregisterObserver pObserver
  | .execSql => execSql
  | .acceptThread => acceptThread
  | .cleanupThread ended => cleanupThread ended
  | .serverUnload clients => serverUnload clients
  | .sendDbMsg client => sendDbMsg client
  | .clientStart => clientStart
  | .clientStop client => clientStop client
  | .sockCleanup => sockCleanup
  | .mtpProcessDevices => mtpProcessDevices
  | .mtpUnload => mtpUnload

/-! ## The order -/

/-- The order in which the mutexes are taken. -/
def lockRank : DevMutex Dev → Nat
  | .muxLock | .clientLock => 0
  | .centerObserverLock | .centerDeviceLock => 1
  | .cmdLock _ _ => 2
  | .execLock _ => 3
  | .tableObserverLock _ => 4
  | .hDbLock | .socketLock | .transLock | .mtpDeviceLock | .clientTransLock _ | .refLock _ => 5

theorem lockRank_lt (k : DevMutex Dev) : lockRank k < 6 := by cases k <;> simp [lockRank]

variable [DecidableEq Dev] {lo : Nat} {k : DevMutex Dev}

/-- A mutex that nothing is taken under. -/
theorem safe_leaf (h : lo ≤ lockRank k) : Safe lockRank lo (within k []) := .within h .nil

theorem safe_execSql : Safe lockRank 5 (execSql : LockTrace Dev) := safe_leaf (Nat.le_refl 5)

theorem safe_notify (t : DbTable) : Safe lockRank 4 (notify t : LockTrace Dev) := safe_leaf (Nat.le_refl 4)

theorem safe_write (t : DbTable) : Safe lockRank 4 (execSql ++ notify t : LockTrace Dev) :=
  (safe_execSql.mono (by decide)).append (safe_notify t)

theorem safe_onCmdEvent (pObserver : CmdObserver) (cmdCode : DevCmdCode) (apps : Nat) (e : CmdEvent) :
    Safe lockRank 4 (onCmdEvent pObserver cmdCode apps e : LockTrace Dev) := by
  have hsql : Safe lockRank 4 (execSql : LockTrace Dev) := safe_execSql.mono (by decide)
  cases e with
  | onExecuting | onCancelled | onFailed _ =>
    cases pObserver with
    | cmdTableMod => exact safe_write .cmdTable
    | devTableMod | appTableMod => exact .nil
  | onExecuted =>
    cases pObserver with
    | cmdTableMod => exact safe_write .cmdTable
    | devTableMod =>
      simp only [onCmdEvent]
      split
      · exact safe_write .devTable
      · exact safe_write .devTable
      · exact safe_write .devTable
      · exact .nil
    | appTableMod =>
      refine .ite (fun _ => ?_) fun _ => .nil
      exact (hsql.append (.flatMap fun _ _ => hsql)).append (safe_notify .appTable)

/-- Nothing is taken under the mutex of a count. -/
theorem safe_ref (o : RefObject Dev) : Safe lockRank 5 (within (.refLock o) []) := safe_leaf (Nat.le_refl 5)

theorem safe_queueCmd (d : Dev) (cmdCode : DevCmdCode) (pObserver : CmdObserver) (requests : Bool) :
    Safe lockRank 2 (queueCmd d cmdCode pObserver requests) := by
  refine .append ((safe_ref _).mono (by decide)) (.within (Nat.le_refl 2) (.ite (fun _ => ?_) fun _ => .nil))
  exact .within (Nat.le_refl 3) ((safe_ref _).mono (show 4 ≤ 5 by decide))

/-- `OnCancelled` is called with the queue's mutex given back. -/
theorem safe_flushCmds (d : Dev) (records : Queue → List CmdRec) : Safe lockRank 2 (flushCmds d records) := by
  refine .flatMap fun i _ => .yielding (Nat.le_refl 2) fun p hp => ?_
  obtain ⟨pRec, -, rfl⟩ := List.mem_map.1 hp
  exact ((safe_onCmdEvent _ _ _ _).mono (by decide)).append ((safe_ref _).mono (by decide))

theorem safe_release (d : Dev) (last : LastRef) : Safe lockRank 2 (release d last) := by
  refine .append ((safe_ref _).mono (by decide)) ?_
  cases last with
  | none => exact .nil
  | some records => exact safe_flushCmds d records

theorem safe_executeOne (run : CmdRun) : Safe lockRank 4 (executeOne run : LockTrace Dev) := by
  have hevent : ∀ e, Safe lockRank 4 (onCmdEvent run.pRec.pObserver run.pRec.cmdCode run.apps e : LockTrace Dev) :=
    safe_onCmdEvent _ _ _
  have hmtp : Safe lockRank 4 (within .mtpDeviceLock [] : LockTrace Dev) := safe_leaf (show 4 ≤ 5 by decide)
  have hexecute : Safe lockRank 4 (cmdExecute run : LockTrace Dev) :=
    .ite (fun _ => hmtp.append (.ite (fun _ => hmtp) fun _ => .nil)) fun _ => .nil
  refine .ite (fun _ => hevent _) fun _ => ?_
  exact ((hevent _).append hexecute).append (.ite (fun _ => hevent _) fun _ => hevent _)

theorem safe_execute (d : Dev) (nQueue : Queue) (runs : List CmdRun) : Safe lockRank 2 (execute d nQueue runs) := by
  refine .yielding (Nat.le_refl 2) fun p hp => ?_
  obtain ⟨run, -, rfl⟩ := List.mem_map.1 hp
  exact ((safe_executeOne run).mono (by decide)).append ((safe_ref _).mono (by decide))

/-- `Execute` and `Release` are called with `_ExecLock` given back. -/
theorem safe_workThread (nQueue : Queue) (devices : List (Dev × List CmdRun × LastRef)) :
    Safe lockRank 2 (workThread nQueue devices) := by
  refine .yielding (show 2 ≤ 3 by decide) fun p hp => ?_
  obtain ⟨x, -, rfl⟩ := List.mem_map.1 hp
  exact (safe_execute _ _ _).append (safe_release _ _)

theorem safe_onAttached (pObserver : CmdObserver) : Safe lockRank 4 (onAttached pObserver : LockTrace Dev) := by
  cases pObserver with
  | devTableMod => exact safe_write .devTable
  | cmdTableMod | appTableMod => exact .nil

theorem safe_onDetached (pObserver : CmdObserver) : Safe lockRank 4 (onDetached pObserver : LockTrace Dev) := by
  cases pObserver with
  | devTableMod => exact safe_write .devTable
  | cmdTableMod | appTableMod => exact .nil

/-- `OnStateChanged` queues commands, under `_ObserverLock` of the center. -/
theorem safe_onStateChanged (d : Dev) (state : DevState) (requests : DevCmdCode → Bool) (pObserver : CmdObserver) :
    Safe lockRank 2 (onStateChanged d state requests pObserver) := by
  cases pObserver with
  | devTableMod =>
    refine ((safe_write .devTable).mono (by decide)).append (.ite (fun _ => ?_) fun _ => .nil)
    exact ((safe_queueCmd _ _ _ _).append (safe_queueCmd _ _ _ _)).append (safe_queueCmd _ _ _ _)
  | cmdTableMod | appTableMod => exact .nil

theorem safe_getDevice (found : Option (FoundDevice Dev)) : Safe lockRank 1 (getDevice found) := by
  refine .within (Nat.le_refl 1) ?_
  cases found with
  | none => exact .nil
  | some f => exact (safe_ref _).mono (show 2 ≤ 5 by decide)

/-- The list of the devices is changed. -/
theorem safe_deviceList : Safe lockRank 1 (within .centerDeviceLock [] : LockTrace Dev) := safe_leaf (Nat.le_refl 1)

theorem safe_onDeviceAttached (d : Dev) (observers : List CmdObserver) :
    Safe lockRank 1 (onDeviceAttached d observers) := by
  have hadd : Safe lockRank 1 (addRef (.device d)) := (safe_ref _).mono (by decide)
  refine (Safe.append safe_deviceList hadd).append (.within (Nat.le_refl 1) (.flatMap fun x _ => ?_))
  exact (safe_onAttached x).mono (show 2 ≤ 4 by decide)

theorem safe_onDeviceDetached (d : Dev) (last : LastRef) (observers : List CmdObserver) :
    Safe lockRank 1 (onDeviceDetached d last observers) := by
  have hrelease : Safe lockRank 1 (release d last) := (safe_release d last).mono (by decide)
  refine (Safe.append safe_deviceList hrelease).append (.within (Nat.le_refl 1) (.flatMap fun x _ => ?_))
  exact (safe_onDetached x).mono (show 2 ≤ 4 by decide)

theorem safe_registerObserver (pObserver : CmdObserver) (devices : List Dev) :
    Safe lockRank 1 (registerObserver pObserver devices) := by
  have hadd : Safe lockRank 1 (addRef (.observer pObserver) : LockTrace Dev) := (safe_ref _).mono (by decide)
  refine ((safe_leaf (Nat.le_refl 1)).append hadd).append (.within (Nat.le_refl 1) (.flatMap fun _ _ => ?_))
  exact (safe_onAttached pObserver).mono (show 2 ≤ 4 by decide)

theorem safe_update (cmdCode : DevCmdCode) (pObserver : CmdObserver) (found : Option (FoundDevice Dev)) :
    Safe lockRank 1 (update cmdCode pObserver found) := by
  refine (safe_getDevice found).append ?_
  cases found with
  | none => exact .nil
  | some f => exact ((safe_queueCmd _ _ _ _).append (safe_release _ _)).mono (by decide)

theorem safe_processDbMsg (x : DbRequest Dev) : Safe lockRank 1 (processDbMsg x) := by
  cases x with
  | cmdTabUpdated => exact .nil
  | updateSysInfo found | updateBattInfo found | updateDiskInfo found | updateAppList found | findMe found =>
    exact safe_update _ _ found

theorem safe_processCmd (row : RequestRow Dev) : Safe lockRank 1 (processCmd row) := by
  have hsql : Safe lockRank 1 (execSql : LockTrace Dev) := safe_execSql.mono (by decide)
  have hnotify : Safe lockRank 1 (notify .cmdTable : LockTrace Dev) := (safe_notify _).mono (by decide)
  refine ((((safe_getDevice _).append ?_).append hsql).append hnotify).append ?_
  · split
    · exact (safe_queueCmd _ _ _ _).mono (by decide)
    · exact .nil
  · split
    · exact (safe_release _ _).mono (by decide)
    · exact .nil

theorem safe_probeCmds (rows : List (RequestRow Dev)) : Safe lockRank 1 (probeCmds rows) :=
  Safe.append (safe_leaf (show 1 ≤ 5 by decide)) (.flatMap fun row _ => safe_processCmd row)

/-- The requests of the clients are processed under `_MuxLock`. -/
theorem safe_muxThread (ready : List (List (DbRequest Dev))) : Safe lockRank 0 (muxThread ready) := by
  refine Safe.append (Safe.append (safe_leaf (Nat.zero_le _)) (safe_leaf (Nat.zero_le _))) ?_
  exact .within (Nat.zero_le _) (.flatMap fun pdus _ => .flatMap fun x _ => safe_processDbMsg x)

theorem safe_handler : Safe lockRank 0 (handlerInit : LockTrace Dev) :=
  ((safe_leaf (Nat.zero_le _)).append (safe_leaf (Nat.zero_le _))).append (safe_leaf (Nat.zero_le _))

theorem safe_finishTransInst : Safe lockRank 0 (finishTransInst : LockTrace Dev) :=
  Safe.append (safe_leaf (Nat.zero_le _)) (safe_leaf (Nat.zero_le _))

/-- The client records are freed with `_ClientLock` given back. -/
theorem safe_freeClientRec : Safe lockRank 0 (freeClientRec : LockTrace Dev) :=
  Safe.append (Safe.append (safe_leaf (Nat.zero_le _)) safe_handler) safe_finishTransInst

theorem safe_clientStop (client : Nat) : Safe lockRank 0 (clientStop client : LockTrace Dev) :=
  Safe.append (Safe.append (safe_leaf (Nat.zero_le _)) (safe_leaf (Nat.zero_le _))) safe_finishTransInst

theorem safe_acceptThread : Safe lockRank 0 (acceptThread : LockTrace Dev) := by
  refine Safe.append (safe_leaf (Nat.zero_le _)) ?_
  exact Safe.append (Safe.append (safe_leaf (Nat.zero_le _)) safe_handler) (safe_leaf (Nat.zero_le _))

/-- **Every call takes its mutexes in the order of the rank.** -/
theorem safe_trace (call : LockCall Dev) : Safe lockRank 0 (trace call) := by
  cases call with
  | muxThread ready => exact safe_muxThread ready
  | workThread nQueue devices => exact (safe_workThread nQueue devices).mono (Nat.zero_le _)
  | probeCmds rows => exact (safe_probeCmds rows).mono (Nat.zero_le _)
  | onDeviceAttached d observers => exact (safe_onDeviceAttached d observers).mono (Nat.zero_le _)
  | onDeviceDetached d last observers => exact (safe_onDeviceDetached d last observers).mono (Nat.zero_le _)
  | addRef o => exact (safe_ref o).mono (Nat.zero_le _)
  | release d last => exact (safe_release d last).mono (Nat.zero_le _)
  | releaseObserver pObserver => exact (safe_ref _).mono (Nat.zero_le _)
  | onDeviceStateChanged d state requests observers =>
    exact .within (Nat.zero_le _) (.flatMap fun x _ => safe_onStateChanged d state requests x)
  | registerObserver pObserver devices => exact (safe_registerObserver pObserver devices).mono (Nat.zero_le _)
  | unregisterObserver pObserver =>
    exact Safe.append (safe_leaf (Nat.zero_le _)) ((safe_ref _).mono (Nat.zero_le _))
  | execSql => exact safe_execSql.mono (Nat.zero_le _)
  | acceptThread => exact safe_acceptThread
  | cleanupThread ended =>
    exact Safe.append (safe_leaf (Nat.zero_le _)) (.flatMap fun _ _ => safe_freeClientRec)
  | serverUnload clients =>
    refine .yielding (Nat.zero_le _) fun p hp => ?_
    obtain ⟨-, -, rfl⟩ := List.mem_map.1 hp
    exact safe_freeClientRec
  | sendDbMsg _ | sockCleanup | mtpUnload => exact safe_leaf (Nat.zero_le _)
  | clientStart => exact Safe.append (safe_leaf (Nat.zero_le _)) (safe_leaf (Nat.zero_le _))
  | clientStop client => exact safe_clientStop client
  | mtpProcessDevices => exact Safe.append (safe_leaf (Nat.zero_le _)) (safe_leaf (Nat.zero_le _))

variable {τ : Type} [DecidableEq τ] [Fintype τ] {s s' : LockState (DevMutex Dev) τ}

/-- **The library does not deadlock on its mutexes.**  However many threads are in whichever calls, over whatever the
lists hold: while one of them is in a call, some thread goes on; all the calls can be run to their ends, and in any
order of running them they take no more steps than they have operations; and a thread between two calls holds no
mutex. -/
theorem no_deadlock (h : (LockState.machine trace : Machine _ (LockStep τ (LockCall Dev))).Reach s) :
    (∀ t, s.rest t ≠ [] → ∃ u s', LockState.step trace s (.op u) = some s') ∧
    (∀ as s', (LockState.machine trace).runWhen LockState.OnlyOps s as = some s' →
      as.length ≤ s.left ∧ ∃ bs t, (LockState.machine trace).runWhen LockState.OnlyOps s' bs = some t ∧
        ∀ u, t.rest u = []) ∧
    (∀ t, s.rest t = [] → ∀ k, s.holder k ≠ some t) := by
  obtain ⟨held, hi⟩ := LockState.inv_reach safe_trace h
  refine ⟨fun t ht => hi.goes trace lockRank_lt ht, fun as s' hr => ?_, fun t ht k hk => ?_⟩
  · exact LockState.calls_return safe_trace lockRank_lt h hr
  · have hord := hi.ordered t
    rw [ht] at hord
    have hmem := (hi.held_iff t k).1 hk
    rw [show held t = [] from hord] at hmem
    cases hmem

/-- The mux thread asks for the battery of device 5, and waits under `_MuxLock` for the queue that the announcement of
its state has locked under `_ObserverLock`. -/
def contendedRun : List (LockStep (Fin 2) (LockCall Nat)) :=
  [.begin 0 (.muxThread [[.updateBattInfo (some ⟨5, false, none⟩)]]),
    .begin 1 (.onDeviceStateChanged 5 .main (fun _ => true) [.devTableMod])] ++
    List.replicate 11 (.op 0) ++ List.replicate 8 (.op 1)

theorem no_deadlock_contended : ∃ s, (LockState.machine trace).run LockState.idle contendedRun = some s ∧
    (s.rest 0).head? = some (.lock (.cmdLock 5 0)) ∧ s.holder (.cmdLock 5 0) = some 1 ∧ s.holder .muxLock = some 0 ∧
    ∃ u s', LockState.step trace s (.op u) = some s' := by
  obtain ⟨s, hs, hv⟩ := Option.map_eq_some_iff.1 (show ((LockState.machine trace).run LockState.idle contendedRun).map
    (fun s => ((s.rest 0).head?, s.holder (.cmdLock 5 0), s.holder .muxLock)) =
      some (some (.lock (.cmdLock 5 0)), some 1, some 0) by decide)
  simp only [Prod.mk.injEq] at hv
  obtain ⟨hhead, hcmd, hmux⟩ := hv
  have hne : s.rest 0 ≠ [] := by
    intro hn
    simp [hn] at hhead
  have hreach := Machine.Reach.run (M := LockState.machine trace) (.init rfl) hs
  exact ⟨s, hs, hhead, hcmd, hmux, (no_deadlock hreach).1 0 hne⟩

end LockUse
end DevMgr
