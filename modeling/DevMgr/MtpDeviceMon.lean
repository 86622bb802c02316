import DevMgr.Machine
import DevMgr.Matching
/-!
# MtpDeviceMon — the records of the MTP devices and their handles

`MtpDeviceMon.cpp` and `AdbCmdPushPullFile::MtpSendFile`, the caller of `GetMtpDevice` and `ReleaseMtpDevice`.
`EnumDevices` runs in the monitor thread: `ProcessDevices` sorts `_DeviceList` under `_DeviceLock`, opens the new
devices without it, and adds them under it again, so the calls of the other threads fall between.  A region under the
lock is one step.  What libmtp returns is in the labels: the list of an enumeration, with the serial each device in it
has, and the handle of an `Open_Raw_Device`, which is none of those that are open.

A record is known by `pRec`, the number of its `CreateRec`.  `held` are the handles that callers have, once for each;
`freed` are the records given to `FreeRec`, as they were then.  `dwRefCnt` counts calls in progress and is a `Nat`.
-/
namespace DevMgr

open Machines Matching

/-- What `IsEqual` compares of a `LIBMTP_raw_device_t`. -/
structure RawDevice where
  busLocation : UInt32
  devnum : UInt8
  deriving DecidableEq, Repr

/-- A device on the bus, with its serial number. -/
structure BusDevice (Id : Type) extends RawDevice where
  serial : Id
  deriving DecidableEq, Repr

structure MtpRec (Id Handle : Type) where
  pRec : Nat
  bRemove : Bool
  dwRefCnt : Nat
  szId : Id
  pRawDevice : RawDevice
  pMtpDevice : Option Handle
  deriving DecidableEq, Repr

/-- Where the monitor thread is: waiting, or opening the devices of its `NewList`. -/
inductive MtpPc (Id Handle : Type) where
  | idle
  | initing (opened todo : List (MtpRec Id Handle))
  deriving DecidableEq, Repr

/-- `latest` is what the last enumeration listed; `failed` whether an assertion failed. -/
structure MtpState (Id Handle : Type) where
  deviceList : List (MtpRec Id Handle)
  pc : MtpPc Id Handle
  created : Nat
  opened : List Handle
  held : List Handle
  freed : List (MtpRec Id Handle)
  latest : List (BusDevice Id)
  failed : Bool

inductive MtpStep (Id Handle : Type) where
  | getMtpDevice (szId : Id)
  | releaseMtpDevice (pDevice : Handle)
  | enumDevices (pDevices : Option (List (BusDevice Id)))
  | initRec (pMtpDevice : Option Handle)
  | splice

variable {Id Handle : Type}

/-- What the first loop of `ProcessDevices` makes of the list: what is left of `DupList`, and the new `_DeviceList` and
`NewList`. -/
structure MtpSorted (Id Handle : Type) where
  dupList : List (MtpRec Id Handle)
  deviceList : List (MtpRec Id Handle)
  newList : List (MtpRec Id Handle)
  created : Nat

def MtpPc.newList : MtpPc Id Handle → List (MtpRec Id Handle)
  | .idle => []
  | .initing opened todo => opened ++ todo

namespace MtpDeviceMon

def isEqual (pDevice1 pDevice2 : RawDevice) : Bool :=
  pDevice1.busLocation == pDevice2.busLocation && pDevice1.devnum == pDevice2.devnum

def createRec (pRec : Nat) (pDevice : BusDevice Id) : MtpRec Id Handle :=
  { pRec := pRec, bRemove := false, dwRefCnt := 0, szId := pDevice.serial, pRawDevice := pDevice.toRawDevice
    pMtpDevice := none }

def sortDevices : Nat → List (MtpRec Id Handle) → List (BusDevice Id) → MtpSorted Id Handle
  | created, dupList, [] => ⟨dupList, [], [], created⟩
  | created, dupList, d :: ds => match takeFirst (fun r => isEqual r.pRawDevice d.toRawDevice) dupList with
    | none =>
      let t := sortDevices (created + 1) dupList ds
      { t with newList := createRec created d :: t.newList }
    | some (pRec, dupList') =>
      let t := sortDevices created dupList' ds
      { t with deviceList := pRec :: t.deviceList }

/-- The records of the devices that no record of `DupList` is equal to. -/
def createRecs : Nat → List (BusDevice Id) → List (MtpRec Id Handle)
  | _, [] => []
  | created, d :: ds => createRec created d :: createRecs (created + 1) ds

/-- The record and the device are at one address. -/
def atAddress (r : MtpRec Id Handle) (d : BusDevice Id) : Bool := isEqual r.pRawDevice d.toRawDevice

/-- The records that the enumeration keeps, those it does not, and the devices that are new. -/
def kept (l : List (MtpRec Id Handle)) (ds : List (BusDevice Id)) : List (MtpRec Id Handle) :=
  (assign atAddress l ds).1.filterMap Prod.snd

def unlisted (l : List (MtpRec Id Handle)) (ds : List (BusDevice Id)) : List (MtpRec Id Handle) :=
  (assign atAddress l ds).2

def unknown (l : List (MtpRec Id Handle)) (ds : List (BusDevice Id)) : List (BusDevice Id) :=
  ((assign atAddress l ds).1.filter (·.2.isNone)).map Prod.fst

/-- **The first loop of `ProcessDevices` is a matching** of the records with the devices. -/
theorem sortDevices_eq (ds : List (BusDevice Id)) (dupList : List (MtpRec Id Handle)) : ∀ created,
    sortDevices created dupList ds = ⟨unlisted dupList ds, kept dupList ds, createRecs created (unknown dupList ds),
      created + (unknown dupList ds).length⟩ := by
  refine assign_induct atAddress (fun old ds as rest => ∀ created, sortDevices created old ds =
    ⟨rest, as.filterMap Prod.snd, createRecs created ((as.filter (·.2.isNone)).map Prod.fst),
      created + ((as.filter (·.2.isNone)).map Prod.fst).length⟩) ?_ ?_ ?_ ds dupList
  · intro old created
    rfl
  · intro old d ds hn ih created
    rw [sortDevices, show takeFirst (fun r => isEqual r.pRawDevice d.toRawDevice) old = none from hn]
    dsimp only
    rw [ih (created + 1), List.filter_cons_of_pos (by rfl), List.map_cons, List.length_cons, createRecs,
      Nat.add_right_comm, Nat.add_assoc]
    rfl
  · intro old r rest d ds h ih created
    rw [sortDevices, show takeFirst (fun r => isEqual r.pRawDevice d.toRawDevice) old = some (r, rest) from h]
    dsimp only
    rw [ih created, List.filter_cons_of_neg (by simp)]
    rfl

theorem mem_createRecs {r : MtpRec Id Handle} : ∀ {ds : List (BusDevice Id)} {created : Nat},
    r ∈ createRecs created ds → ∃ n d, d ∈ ds ∧ r = createRec n d ∧ created ≤ n ∧ n < created + ds.length
  | d :: ds, created, h => by
    rcases List.mem_cons.1 h with rfl | h
    · exact ⟨created, d, List.mem_cons_self, rfl, Nat.le_refl _, by rw [List.length_cons]; omega⟩
    · obtain ⟨n, d', h1, h2, h3, h4⟩ := mem_createRecs h
      exact ⟨n, d', List.mem_cons_of_mem d h1, h2, by omega, by rw [List.length_cons]; omega⟩

end MtpDeviceMon

namespace MtpState

open MtpDeviceMon

variable [DecidableEq Id] [DecidableEq Handle]

def freeRec (s : MtpState Id Handle) (pRec : MtpRec Id Handle) : MtpState Id Handle :=
  { s with
    freed := s.freed ++ [pRec]
    opened := match pRec.pMtpDevice with
      | some h => s.opened.erase h
      | none => s.opened }

/-- The second loop of `ProcessDevices`. -/
def dropDups (s : MtpState Id Handle) : List (MtpRec Id Handle) → MtpState Id Handle
  | [] => s
  | pRec :: dupList =>
    if pRec.dwRefCnt ≠ 0 then
      dropDups { s with deviceList := s.deviceList ++ [{ pRec with bRemove := true }] } dupList
    else dropDups (s.freeRec pRec) dupList

omit [DecidableEq Id] in
theorem dropDups_deviceList : ∀ (dupList : List (MtpRec Id Handle)) (s : MtpState Id Handle),
    (s.dropDups dupList).deviceList =
      s.deviceList ++ (dupList.filter (·.dwRefCnt ≠ 0)).map fun r => { r with bRemove := true }
  | [], s => (List.append_nil _).symm
  | r :: dupList, s => by
    rw [dropDups]
    split
    · rename_i hr
      rw [dropDups_deviceList dupList, List.filter_cons_of_pos (by simpa using hr), List.append_assoc]
      rfl
    · rename_i hr
      rw [dropDups_deviceList dupList, List.filter_cons_of_neg (by simpa using hr)]
      rfl

omit [DecidableEq Id] in
/-- The second loop touches nothing but the lists. -/
theorem dropDups_keeps : ∀ (dupList : List (MtpRec Id Handle)) (s : MtpState Id Handle),
    (s.dropDups dupList).pc = s.pc ∧ (s.dropDups dupList).created = s.created ∧
      (s.dropDups dupList).held = s.held ∧ (s.dropDups dupList).failed = s.failed
  | [], s => ⟨rfl, rfl, rfl, rfl⟩
  | r :: dupList, s => by
    rw [dropDups]
    split
    · exact dropDups_keeps dupList _
    · exact dropDups_keeps dupList _

/-- `ProcessDevices` up to its first unlock. -/
def processDevices (s : MtpState Id Handle) (pDevices : List (BusDevice Id)) : MtpState Id Handle :=
  let t := sortDevices s.created s.deviceList pDevices
  dropDups { s with deviceList := t.deviceList, created := t.created, pc := .initing [] t.newList } t.dupList

/-- The state before the second loop. -/
def sorted (s : MtpState Id Handle) (ds : List (BusDevice Id)) : MtpState Id Handle :=
  { s with
    deviceList := kept s.deviceList ds
    created := s.created + (unknown s.deviceList ds).length
    pc := .initing [] (createRecs s.created (unknown s.deviceList ds)) }

omit [DecidableEq Id] in
theorem processDevices_eq (s : MtpState Id Handle) (ds : List (BusDevice Id)) :
    s.processDevices ds = (s.sorted ds).dropDups (unlisted s.deviceList ds) := by
  unfold processDevices sorted
  rw [sortDevices_eq]

/-- A store through the pointer `pRec`. -/
def setRec (l : List (MtpRec Id Handle)) (pRec : MtpRec Id Handle) : List (MtpRec Id Handle) :=
  l.map fun r => if r.pRec = pRec.pRec then pRec else r

/-- The record `GetMtpDevice` finds. -/
def lookup (s : MtpState Id Handle) (szId : Id) : Option (MtpRec Id Handle) := s.deviceList.find? (·.szId = szId)

def step (s : MtpState Id Handle) : MtpStep Id Handle → Option (MtpState Id Handle)
  | .getMtpDevice szId => match s.lookup szId with
    | none => some s
    | some r => match r.pMtpDevice with
      | none => some { s with failed := true }
      | some h => some { s with
          deviceList := setRec s.deviceList { r with dwRefCnt := r.dwRefCnt + 1 }, held := s.held ++ [h] }
  | .releaseMtpDevice pDevice => if pDevice ∈ s.held then
      match takeFirst (fun r => r.pMtpDevice = some pDevice) s.deviceList with
      | none => some { s with failed := true }
      | some (r, rest) =>
        let r' := { r with dwRefCnt := r.dwRefCnt - 1 }
        if r.bRemove = true ∧ r'.dwRefCnt = 0 then
          some ({ s with deviceList := rest, held := s.held.erase pDevice }.freeRec r')
        else some { s with deviceList := setRec s.deviceList r', held := s.held.erase pDevice }
    else none
  | .enumDevices pDevices => if s.pc = .idle then match pDevices with
      | none => some { s with latest := [] }
      | some ds => some { s.processDevices ds with latest := ds }
    else none
  | .initRec pMtpDevice => match s.pc with
    | .initing opened (r :: todo) => match pMtpDevice with
      | none => some ({ s with pc := .initing opened todo }.freeRec r)
      | some h => if h ∈ s.opened then none else some { s with
          pc := .initing (opened ++ [{ r with pMtpDevice := some h }]) todo, opened := s.opened ++ [h] }
    | _ => none
  | .splice => match s.pc with
    | .initing opened [] => some { s with deviceList := s.deviceList ++ opened, pc := .idle }
    | _ => none

def start : MtpState Id Handle :=
  { deviceList := [], pc := .idle, created := 0, opened := [], held := [], freed := [], latest := [], failed := false }

def machine (Id Handle : Type) [DecidableEq Id] [DecidableEq Handle] :
    Machine (MtpState Id Handle) (MtpStep Id Handle) where
  init s := s = start
  step := step

end MtpState
end DevMgr
