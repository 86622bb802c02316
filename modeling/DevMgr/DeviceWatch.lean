import DevMgr.AdbDeviceMon
import DevMgr.BootState
import DevMgr.Watcher
/-!
# DeviceWatch — the monitor threads

`UsbDeviceMon`'s thread waits for the events of the bus and wakes those of `MtpDeviceMon` and `AdbDeviceMon`, each of
which enumerates its devices; `OnDeviceAttached`, and a client's message that the table of requests has changed, wake
that of `CmdTableMod`, which reads the table.  The ADB thread also asks the devices that it lists whether they are still
booting, with a timeout while there is one that is.  Its `ProcessDevices` is that of `AdbDeviceMon`, in the midst of the
callers of `DeviceCenter` and of the command queues.

`bus` counts the changes of the bus, the devices that are there at first being one; `rows` those of the requests, whose
messages are `onWay` until `OnCmdUpdated` is called; `attaches` those of `OnDeviceAttached`.  The sockets' messages are
the semaphore of the USB thread: a change gives it one, or finds its buffer full.  `announced` is what
`OnDeviceStateChanged` was called with.  `Unload`, once it has joined the thread, takes every device from the list as
`ProcessDevices` does when it is given no ids.
-/
namespace DevMgr

open Machines Watchers SmartDeviceAdb AdbCmdGetProp

def ADB_DEV_PROBE_COUNT : Nat := 4

/-- Where `UsbDeviceMon::MonThread` is: before a test of `_bQuit`, before `OnChanged` of the one and of the other, or in
`WaitUEvent`. -/
inductive UsbPc where
  | test
  | mtpOnChanged
  | adbOnChanged
  | innerTest
  | waitUEvent
  | stopped
  deriving DecidableEq, Repr

/-- Where `AdbDeviceMon::MonThread` is; `changed` is in front of an `OnDeviceStateChanged`.  Once it is over, `Unload`
is in its loop over the devices. -/
inductive AdbThreadPc (Id : Type) where
  | waiting
  | returned (ok : Bool)
  | counting
  | probing (nRetry dwCnt : Nat)
  | enumerating (nRetry dwCnt : Nat)
  | comparing (nRetry dwCnt : Nat)
  | updating (itr : List (SmartDev Id))
  | changed (d : SmartDev Id) (itr : List (SmartDev Id))
  | stopped
  | unloading
  deriving DecidableEq, Repr

structure WatchState (Id : Type) where
  mon : AdbMonState Id
  bus : Nat
  rows : Nat
  onWay : Nat
  attaches : Nat
  usb : Watcher
  usbPc : UsbPc
  usbQuit : Bool
  mtp : Poller
  cmd : Poller
  adb : Watcher
  adbPc : AdbThreadPc Id
  adbQuit : Bool
  bQueryAgain : Bool
  announced : SmartDev Id → List DevState

/-- The answers of a device that is asked for its state. -/
structure StateAnswer where
  buf : StateBuf
  bootmode : PropQuery
  bootcomplete : PropQuery

inductive WatchStep (Id : Type) where
  | busChange (full : Bool)
  | rowChange
  | onCmdUpdated
  | usbTest
  | usbOnChanged
  | usbTimeout
  | usbError
  | usbRecv
  | usbQuit
  | mtp (a : PollStep)
  | mtpQuitPost
  | cmd (a : PollStep)
  | cmdQuitPost
  | adbTake
  | adbFail
  | adbTest
  | adbCount (dwCnt : Nat)
  | adbEnum (ids : Option (List Id))
  | adbEnumerated
  | adbCompare
  | adbUpdate (answer : StateAnswer)
  | adbAnnounce
  | adbUpdated
  | adbQuit
  | adbQuitPost
  | adbUnload
  | mon (a : AdbMonStep Id)

/-- The steps of `AdbDeviceMon` that another step does not stand for: all but the call of `ProcessDevices` and those
that set the state of a device. -/
def AdbMonStep.inner {Id : Type} : AdbMonStep Id → Bool
  | .processDevices _ => false
  | .adb (.updateState _ _) => false
  | _ => true

/-- `OnDeviceAttached` has a device in the list and has not called its observers. -/
def AdbMonPc.attaching {Id : Type} : AdbMonPc Id → Bool
  | .addRef _ _ _ | .onAttached _ _ _ => true
  | _ => false

/-- `ProcessDevices` has come to the devices that are gone. -/
def AdbMonPc.leaving {Id : Type} : AdbMonPc Id → Bool
  | .scanning _ (_ :: _) | .addRef _ _ _ | .onAttached _ _ _ => false
  | _ => true

/-! ## What the inner steps leave alone -/

namespace AdbState

variable {Dev : Type} [DecidableEq Dev] {s s' : AdbState Dev} {a : AdbStep Dev}

theorem Acts.deviceState_eq {publicFlush : Bool} (ha : Acts publicFlush s a s') (hq : a.inQueues = true)
    (hu : ∀ d charger, a ≠ .updateState d charger) : s'.deviceState = s.deviceState := by
  cases ha with
  | newDevice hd => cases hq
  | updateState hd hb => exact absurd rfl (hu _ _)
  | request hc =>
    unfold AdbState.request
    split <;> rfl
  | «begin» hw hc =>
    unfold takeCmd
    split <;> rfl
  | next hw hc =>
    unfold takeCmd
    split <;> rfl
  | _ => rfl

end AdbState

namespace AdbMonState

variable {Id : Type} [DecidableEq Id] {s s' : AdbMonState Id} {a : AdbMonStep Id}

/-- Outside of `ProcessDevices` the list stays as it is. -/
theorem Acts.idle_keeps (ha : Acts s a s') (hn : a.inner = true) (hpc : s.pc = .idle) :
    s'.pc = .idle ∧ s'.deviceList = s.deviceList ∧ s'.created = s.created := by
  cases ha with
  | processDevices szDevId => cases hn
  | notFound szId hf => exact ⟨hpc, rfl, rfl⟩
  | getDevice szId hf => exact ⟨hpc, rfl, rfl⟩
  | release hg hd => exact ⟨hpc, rfl, rfl⟩
  | adb hq ht => exact ⟨hpc, rfl, rfl⟩
  | _ => simp_all

/-- `OnDeviceAttached` goes on until it has called the observers. -/
theorem Acts.attaching (ha : Acts s a s') (ho : a ≠ .onAttached) (hpc : s.pc.attaching = true) :
    s'.pc.attaching = true := by
  cases ha with
  | addRef h => rfl
  | onAttached h => exact absurd rfl ho
  | notFound szId hf => exact hpc
  | getDevice szId hf => exact hpc
  | release hg hd => exact hpc
  | adb hq ht => exact hpc
  | _ => simp_all [AdbMonPc.attaching]

/-- Only a new device has its state set, and it is booting. -/
theorem Acts.states (ha : Acts s a s') (hn : a.inner = true) :
    (s'.adb.deviceState = s.adb.deviceState ∧ s'.created = s.created) ∨
      ∃ szId, s'.adb.deviceState = Function.update s.adb.deviceState ⟨s.created, szId⟩ .booting ∧
        s'.created = s.created + 1 := by
  cases ha with
  | scanNew hpc hf =>
    rename_i szId todo
    refine .inr ⟨szId, ?_⟩
    unfold attach
    dsimp only
    split
    · exact ⟨rfl, rfl⟩
    · exact ⟨rfl, rfl⟩
  | popFront hpc =>
    refine .inl ?_
    unfold detach
    dsimp only
    split
    · exact ⟨rfl, rfl⟩
    · exact ⟨rfl, rfl⟩
  | adb hq ht =>
    refine .inl ⟨(AdbState.act_some ht).deviceState_eq hq ?_, rfl⟩
    rintro d charger rfl
    cases hn
  | _ => exact .inl ⟨rfl, rfl⟩

/-- A call that only takes devices from the lists goes on so. -/
theorem Acts.leaving (ha : Acts s a s') (hn : a.inner = true) (hpc : s.pc.leaving = true) (hl : s.deviceList = []) :
    s'.pc.leaving = true ∧ s'.deviceList = [] := by
  cases ha with
  | processDevices szDevId => cases hn
  | notFound szId hf => exact ⟨hpc, hl⟩
  | getDevice szId hf => exact ⟨hpc, hl⟩
  | release hg hd => exact ⟨hpc, hl⟩
  | adb hq ht => exact ⟨hpc, hl⟩
  | popFront h =>
    unfold detach
    dsimp only
    split
    · exact ⟨rfl, hl⟩
    · exact ⟨rfl, hl⟩
  | _ => simp_all [AdbMonPc.leaving]

end AdbMonState

namespace WatchState

variable {Id : Type} [DecidableEq Id]

/-- An inner step of `AdbDeviceMon`; the table of requests is told of a device by the calls of the observers. -/
def monStep (s : WatchState Id) (a : AdbMonStep Id) (mon : AdbMonState Id) : WatchState Id :=
  match a with
  | .scan => { s with mon := mon, attaches := if mon.pc.attaching = true then s.attaches + 1 else s.attaches }
  | .onAttached => { s with mon := mon, cmd := s.cmd.post }
  | _ => { s with mon := mon }

/-- The call of `UpdateState` for the next device of the list. -/
def update (s : WatchState Id) (d : SmartDev Id) (itr : List (SmartDev Id)) (u : StateUpdate) : WatchState Id :=
  { s with
    mon := { s.mon with adb := { s.mon.adb with
      deviceState := Function.update s.mon.adb.deviceState d u.deviceState } }
    bQueryAgain := s.bQueryAgain || !u.bFinished
    adbPc := if u.bChanged = true then .changed d itr else .updating itr }

def step (s : WatchState Id) : WatchStep Id → Option (WatchState Id)
  | .busChange full =>
    if full = true then (if 0 < s.usb.sem then some { s with bus := s.bus + 1 } else none)
    else some { s with bus := s.bus + 1, usb := s.usb.post }
  | .rowChange => some { s with rows := s.rows + 1, onWay := s.onWay + 1 }
  | .onCmdUpdated => some { s with onWay := s.onWay - 1, cmd := s.cmd.post }
  | .usbTest => match s.usbPc with
    | .test => if s.usbQuit = true then some { s with usbPc := .stopped }
      else some { s with usbPc := .mtpOnChanged, usb := s.usb.look s.bus }
    | .innerTest => some { s with usbPc := if s.usbQuit = true then .test else .waitUEvent }
    | _ => none
  | .usbOnChanged => match s.usbPc with
    | .mtpOnChanged => some { s with usbPc := .adbOnChanged, mtp := s.mtp.post }
    | .adbOnChanged => some { s with usbPc := .innerTest, adb := s.adb.post }
    | _ => none
  | .usbTimeout => match s.usbPc with
    | .waitUEvent => some { s with usbPc := .innerTest }
    | _ => none
  | .usbError => match s.usbPc with
    | .waitUEvent => some { s with usbPc := .test }
    | _ => none
  | .usbRecv => match s.usbPc with
    | .waitUEvent => s.usb.take.map fun w => { s with usbPc := .test, usb := w }
    | _ => none
  | .usbQuit => some { s with usbQuit := true }
  | .mtp a => (s.mtp.step s.bus a).map fun p => { s with mtp := p }
  | .mtpQuitPost => if s.mtp.quit = true then some { s with mtp := s.mtp.post } else none
  | .cmd a => (s.cmd.step (s.rows + s.attaches) a).map fun p => { s with cmd := p }
  | .cmdQuitPost => if s.cmd.quit = true then some { s with cmd := s.cmd.post } else none
  | .adbTake => match s.adbPc with
    | .waiting => s.adb.take.map fun w => { s with adbPc := .returned true, adb := w }
    | _ => none
  | .adbFail => match s.adbPc with
    | .waiting => some { s with adbPc := .returned false }
    | _ => none
  | .adbTest => match s.adbPc with
    | .returned ok =>
      if s.adbQuit = true then some { s with adbPc := .stopped }
      else if ok = true then some { s with adbPc := .counting }
      else some { s with adbPc := .updating s.mon.deviceList, bQueryAgain := false }
    | _ => none
  | .adbCount dwCnt => match s.adbPc with
    | .counting => some { s with adbPc := .probing 0 dwCnt }
    | _ => none
  | .adbEnum ids => match s.adbPc, ids with
    | .probing nRetry dwCnt, none => some { s with adbPc := .comparing nRetry dwCnt, adb := s.adb.look s.bus }
    | .probing nRetry dwCnt, some ids => (s.mon.step (.processDevices ids)).map fun m =>
        { s with mon := m, adbPc := .enumerating nRetry dwCnt, adb := s.adb.look s.bus }
    | _, _ => none
  | .adbEnumerated => match s.adbPc with
    | .enumerating nRetry dwCnt => if s.mon.pc = .idle then some { s with adbPc := .comparing nRetry dwCnt } else none
    | _ => none
  | .adbCompare => match s.adbPc with
    | .comparing nRetry dwCnt =>
      if s.mon.deviceList.length = dwCnt ∨ nRetry + 1 = ADB_DEV_PROBE_COUNT then
        some { s with adbPc := .updating s.mon.deviceList, bQueryAgain := false }
      else some { s with adbPc := .probing (nRetry + 1) dwCnt }
    | _ => none
  | .adbUpdate answer => match s.adbPc with
    | .updating (d :: itr) =>
      match updateState (s.mon.adb.deviceState d) answer.buf answer.bootmode answer.bootcomplete with
      | .ok u => some (s.update d itr u)
      | .error _ => none
    | _ => none
  | .adbAnnounce => match s.adbPc with
    | .changed d itr => some { s with
        adbPc := .updating itr
        announced := Function.update s.announced d (s.announced d ++ [s.mon.adb.deviceState d]) }
    | _ => none
  | .adbUpdated => match s.adbPc with
    | .updating [] => some { s with adbPc := .waiting }
    | _ => none
  | .adbQuit => some { s with adbQuit := true }
  | .adbQuitPost => if s.adbQuit = true then some { s with adb := s.adb.post } else none
  | .adbUnload => match s.adbPc with
    | .stopped => (s.mon.step (.processDevices [])).map fun m => { s with mon := m, adbPc := .unloading }
    | _ => none
  | .mon a => if a.inner = true then (s.mon.step a).map fun m => s.monStep a m else none

/-- The threads are there, with the devices that the bus had before. -/
def start : WatchState Id where
  mon := .start
  bus := 1
  rows := 0
  onWay := 0
  attaches := 0
  usb := ⟨0, true, 0⟩
  usbPc := .test
  usbQuit := false
  mtp := .start 0
  cmd := .start 1
  adb := ⟨0, false, 0⟩
  adbPc := .waiting
  adbQuit := false
  bQueryAgain := false
  announced := fun _ => []

def machine (Id : Type) [DecidableEq Id] : Machine (WatchState Id) (WatchStep Id) where
  init s := s = start
  step := step

/-! ## The steps -/

/-- What a step does. -/
inductive Moves (s : WatchState Id) : WatchState Id → Prop where
  | busChange : Moves s { s with bus := s.bus + 1, usb := s.usb.post }
  | busFull (hsem : 0 < s.usb.sem) : Moves s { s with bus := s.bus + 1 }
  | rowChange : Moves s { s with rows := s.rows + 1, onWay := s.onWay + 1 }
  | onCmdUpdated : Moves s { s with onWay := s.onWay - 1, cmd := s.cmd.post }
  | usbStop (hpc : s.usbPc = .test) : Moves s { s with usbPc := .stopped }
  | usbLook (hpc : s.usbPc = .test) : Moves s { s with usbPc := .mtpOnChanged, usb := s.usb.look s.bus }
  | usbInner (hpc : s.usbPc = .innerTest) (pc : UsbPc) (hpc' : pc = .test ∨ pc = .waitUEvent) :
      Moves s { s with usbPc := pc }
  | mtpOnChanged (hpc : s.usbPc = .mtpOnChanged) : Moves s { s with usbPc := .adbOnChanged, mtp := s.mtp.post }
  | adbOnChanged (hpc : s.usbPc = .adbOnChanged) : Moves s { s with usbPc := .innerTest, adb := s.adb.post }
  | usbNothing (hpc : s.usbPc = .waitUEvent) (pc : UsbPc) (hpc' : pc = .test ∨ pc = .innerTest) :
      Moves s { s with usbPc := pc }
  | usbRecv (hpc : s.usbPc = .waitUEvent) (w : Watcher) (hw : s.usb.take = some w) :
      Moves s { s with usbPc := .test, usb := w }
  | mtp (a : PollStep) (p : Poller) (hp : s.mtp.step s.bus a = some p) : Moves s { s with mtp := p }
  | mtpQuitPost : Moves s { s with mtp := s.mtp.post }
  | cmd (a : PollStep) (p : Poller) (hp : s.cmd.step (s.rows + s.attaches) a = some p) : Moves s { s with cmd := p }
  | cmdQuitPost : Moves s { s with cmd := s.cmd.post }
  | quit (usbQuit adbQuit : Bool) : Moves s { s with usbQuit := usbQuit, adbQuit := adbQuit }
  | adbTake (hpc : s.adbPc = .waiting) (w : Watcher) (hw : s.adb.take = some w) :
      Moves s { s with adbPc := .returned true, adb := w }
  | adbFail (hpc : s.adbPc = .waiting) : Moves s { s with adbPc := .returned false }
  | adbStop (ok : Bool) (hpc : s.adbPc = .returned ok) : Moves s { s with adbPc := .stopped }
  | adbOk (hpc : s.adbPc = .returned true) : Moves s { s with adbPc := .counting }
  | adbPoll (hpc : s.adbPc = .returned false ∨ ∃ nRetry dwCnt, s.adbPc = .comparing nRetry dwCnt) :
      Moves s { s with adbPc := .updating s.mon.deviceList, bQueryAgain := false }
  | adbProbe (nRetry dwCnt : Nat) (hpc : s.adbPc = .counting ∨ ∃ n k, s.adbPc = .comparing n k) :
      Moves s { s with adbPc := .probing nRetry dwCnt }
  | adbNoEnum (nRetry dwCnt : Nat) (hpc : s.adbPc = .probing nRetry dwCnt) :
      Moves s { s with adbPc := .comparing nRetry dwCnt, adb := s.adb.look s.bus }
  | adbEnum (nRetry dwCnt : Nat) (hpc : s.adbPc = .probing nRetry dwCnt) (ids : List Id) (m : AdbMonState Id)
      (hm : s.mon.step (.processDevices ids) = some m) :
      Moves s { s with mon := m, adbPc := .enumerating nRetry dwCnt, adb := s.adb.look s.bus }
  | adbEnumerated (nRetry dwCnt : Nat) (hpc : s.adbPc = .enumerating nRetry dwCnt) (hidle : s.mon.pc = .idle) :
      Moves s { s with adbPc := .comparing nRetry dwCnt }
  | adbUpdate (d : SmartDev Id) (itr : List (SmartDev Id)) (hpc : s.adbPc = .updating (d :: itr)) (answer : StateAnswer)
      (u : StateUpdate)
      (hu : updateState (s.mon.adb.deviceState d) answer.buf answer.bootmode answer.bootcomplete = .ok u) :
      Moves s (s.update d itr u)
  | adbAnnounce (d : SmartDev Id) (itr : List (SmartDev Id)) (hpc : s.adbPc = .changed d itr) : Moves s { s with
      adbPc := .updating itr
      announced := Function.update s.announced d (s.announced d ++ [s.mon.adb.deviceState d]) }
  | adbUpdated (hpc : s.adbPc = .updating []) : Moves s { s with adbPc := .waiting }
  | adbQuitPost : Moves s { s with adb := s.adb.post }
  | adbUnload (hpc : s.adbPc = .stopped) (m : AdbMonState Id) (hm : s.mon.step (.processDevices []) = some m) :
      Moves s { s with mon := m, adbPc := .unloading }
  | mon (a : AdbMonStep Id) (ha : a.inner = true) (m : AdbMonState Id) (hm : s.mon.step a = some m) :
      Moves s (s.monStep a m)

variable {s s' : WatchState Id}

theorem moves {a : WatchStep Id} (hs : step s a = some s') : Moves s s' := by
  cases a with
  | busChange full =>
    simp only [step] at hs
    split at hs
    · obtain ⟨hsem, rfl⟩ := guard_some hs
      exact .busFull hsem
    · cases hs
      exact .busChange
  | rowChange =>
    cases hs
    exact .rowChange
  | onCmdUpdated =>
    cases hs
    exact .onCmdUpdated
  | usbTest =>
    simp only [step] at hs
    split at hs
    · split at hs
      · cases hs
        exact .usbStop ‹_›
      · cases hs
        exact .usbLook ‹_›
    · cases hs
      refine .usbInner ‹_› _ ?_
      split
      · exact .inl rfl
      · exact .inr rfl
    · cases hs
  | usbOnChanged =>
    simp only [step] at hs
    split at hs
    · cases hs
      exact .mtpOnChanged ‹_›
    · cases hs
      exact .adbOnChanged ‹_›
    · cases hs
  | usbTimeout =>
    simp only [step] at hs
    split at hs
    · cases hs
      exact .usbNothing ‹_› _ (.inr rfl)
    · cases hs
  | usbError =>
    simp only [step] at hs
    split at hs
    · cases hs
      exact .usbNothing ‹_› _ (.inl rfl)
    · cases hs
  | usbRecv =>
    simp only [step] at hs
    split at hs
    · obtain ⟨w, hw, rfl⟩ := Option.map_eq_some_iff.1 hs
      exact .usbRecv ‹_› w hw
    · cases hs
  | usbQuit =>
    cases hs
    exact .quit true s.adbQuit
  | mtp a =>
    obtain ⟨p, hp, rfl⟩ := Option.map_eq_some_iff.1 hs
    exact .mtp a p hp
  | mtpQuitPost =>
    obtain ⟨-, rfl⟩ := guard_some hs
    exact .mtpQuitPost
  | cmd a =>
    obtain ⟨p, hp, rfl⟩ := Option.map_eq_some_iff.1 hs
    exact .cmd a p hp
  | cmdQuitPost =>
    obtain ⟨-, rfl⟩ := guard_some hs
    exact .cmdQuitPost
  | adbTake =>
    simp only [step] at hs
    split at hs
    · obtain ⟨w, hw, rfl⟩ := Option.map_eq_some_iff.1 hs
      exact .adbTake ‹_› w hw
    · cases hs
  | adbFail =>
    simp only [step] at hs
    split at hs
    · cases hs
      exact .adbFail ‹_›
    · cases hs
  | adbTest =>
    simp only [step] at hs
    split at hs
    · rename_i ok hpc
      split at hs
      · cases hs
        exact .adbStop ok hpc
      · cases ok with
        | true =>
          cases hs
          exact .adbOk hpc
        | false =>
          cases hs
          exact .adbPoll (.inl hpc)
    · cases hs
  | adbCount dwCnt =>
    simp only [step] at hs
    split at hs
    · cases hs
      exact .adbProbe _ _ (.inl ‹_›)
    · cases hs
  | adbEnum ids =>
    simp only [step] at hs
    split at hs
    · cases hs
      exact .adbNoEnum _ _ ‹_›
    · obtain ⟨m, hm, rfl⟩ := Option.map_eq_some_iff.1 hs
      exact .adbEnum _ _ ‹_› _ m hm
    · cases hs
  | adbEnumerated =>
    simp only [step] at hs
    split at hs
    · obtain ⟨hidle, rfl⟩ := guard_some hs
      exact .adbEnumerated _ _ ‹_› hidle
    · cases hs
  | adbCompare =>
    simp only [step] at hs
    split at hs
    · rename_i nRetry dwCnt hpc
      split at hs
      · cases hs
        exact .adbPoll (.inr ⟨nRetry, dwCnt, hpc⟩)
      · cases hs
        exact .adbProbe _ _ (.inr ⟨nRetry, dwCnt, hpc⟩)
    · cases hs
  | adbUpdate answer =>
    simp only [step] at hs
    split at hs
    · split at hs
      · cases hs
        exact .adbUpdate _ _ ‹_› answer _ ‹_›
      · cases hs
    · cases hs
  | adbAnnounce =>
    simp only [step] at hs
    split at hs
    · cases hs
      exact .adbAnnounce _ _ ‹_›
    · cases hs
  | adbUpdated =>
    simp only [step] at hs
    split at hs
    · cases hs
      exact .adbUpdated ‹_›
    · cases hs
  | adbQuit =>
    cases hs
    exact .quit s.usbQuit true
  | adbQuitPost =>
    obtain ⟨-, rfl⟩ := guard_some hs
    exact .adbQuitPost
  | adbUnload =>
    simp only [step] at hs
    split at hs
    · obtain ⟨m, hm, rfl⟩ := Option.map_eq_some_iff.1 hs
      exact .adbUnload ‹_› m hm
    · cases hs
  | mon a =>
    obtain ⟨ha, ht⟩ := Option.ite_none_right_eq_some.1 hs
    obtain ⟨m, hm, rfl⟩ := Option.map_eq_some_iff.1 ht
    exact .mon a ha m hm

/-! ## Nothing is overlooked -/

/-- Between the look of the USB thread and its two calls of `OnChanged`. -/
def OwesMtp (s : WatchState Id) : Prop := s.usbPc = .mtpOnChanged

def OwesAdb (s : WatchState Id) : Prop := s.usbPc = .mtpOnChanged ∨ s.usbPc = .adbOnChanged

/-- A message is on its way, or a device is in `OnDeviceAttached`. -/
def OwesCmd (s : WatchState Id) : Prop := 0 < s.onWay ∨ s.mon.pc.attaching = true

/-- Where the ADB thread has no token that it did not look for. -/
def AdbDozes (s : WatchState Id) : Prop := match s.adbPc with
  | .returned true | .counting | .probing _ _ | .stopped | .unloading => True
  | _ => s.adb.awake = false

/-- What the four threads have been told of. -/
structure Informed (s : WatchState Id) : Prop where
  usb : s.usb.Told s.bus False
  usb_le : s.usb.seen ≤ s.bus
  usb_dozes : s.usbPc ≠ .test → s.usbPc ≠ .stopped → s.usb.awake = false
  mtp : s.mtp.Told s.usb.seen s.OwesMtp
  mtp_le : s.mtp.seen ≤ s.bus
  mtp_dozes : s.mtp.Dozes
  adb : s.adb.Told s.usb.seen s.OwesAdb
  adb_le : s.adb.seen ≤ s.bus
  adb_dozes : s.AdbDozes
  cmd : s.cmd.Told (s.rows + s.attaches) s.OwesCmd
  cmd_le : s.cmd.seen ≤ s.rows + s.attaches
  cmd_dozes : s.cmd.Dozes

omit [DecidableEq Id] in
theorem Informed.usbStep (h : Informed s) {pc : UsbPc} (hpc : s.usbPc ≠ .mtpOnChanged) (hpc' : s.usbPc ≠ .adbOnChanged)
    (hd : pc ≠ .test → pc ≠ .stopped → s.usb.awake = false) : Informed { s with usbPc := pc } :=
  { h with
    usb_dozes := hd
    mtp := h.mtp.mono fun ho => absurd ho hpc
    adb := h.adb.mono fun ho => ho.elim (absurd · hpc) (absurd · hpc') }

/-- The table of requests, beside an inner step of `AdbDeviceMon`. -/
theorem Informed.mon (h : Informed s) {a : AdbMonStep Id} {m : AdbMonState Id} (hm : s.mon.step a = some m) :
    Informed (s.monStep a m) := by
  obtain ⟨t, ha, rfl⟩ := AdbMonState.step_some hm
  have hkeep : a ≠ .onAttached → s.mon.pc.attaching = true → t.pc.attaching = true := fun ho => ha.attaching ho
  have hsame : a ≠ .onAttached → Informed { s with mon := t.tally (s.mon.released a) } := by
    intro ho
    exact { h with cmd := h.cmd.mono (Or.imp_right (hkeep ho)) }
  unfold monStep
  split
  · -- a device that is new is news, and is owed
    by_cases hatt : (t.tally (s.mon.released .scan)).pc.attaching = true
    · rw [if_pos hatt]
      exact { h with
        cmd := .due _ _ (.inr hatt)
        cmd_le := Nat.le_succ_of_le h.cmd_le }
    · rw [if_neg hatt]
      exact hsame nofun
  · exact { h with cmd := .post _ _ _ }
  · exact hsame ‹_›

theorem Informed.step (h : Informed s) (hs : Moves s s') : Informed s' := by
  cases hs with
  | busChange => exact { h with
      usb := .post _ _ _
      usb_le := Nat.le_succ_of_le h.usb_le
      mtp_le := Nat.le_succ_of_le h.mtp_le
      adb_le := Nat.le_succ_of_le h.adb_le }
  | busFull hsem => exact { h with
      usb := .inr (.inl hsem)
      usb_le := Nat.le_succ_of_le h.usb_le
      mtp_le := Nat.le_succ_of_le h.mtp_le
      adb_le := Nat.le_succ_of_le h.adb_le }
  | rowChange => exact { h with
      cmd := .due _ _ (.inl (Nat.succ_pos _))
      cmd_le := by have := h.cmd_le; simp only; omega }
  | onCmdUpdated => exact { h with cmd := .post _ _ _ }
  | usbStop hpc => exact h.usbStep (by simp [hpc]) (by simp [hpc]) fun _ hn => absurd rfl hn
  | usbLook hpc => exact { h with
      usb := .look (Nat.le_refl _) _ _
      usb_le := Nat.le_refl _
      usb_dozes := fun _ _ => rfl
      mtp := .due _ _ rfl
      adb := .due _ _ (.inl rfl) }
  | usbInner hpc pc hpc' =>
    have hd := h.usb_dozes (by simp [hpc]) (by simp [hpc])
    exact h.usbStep (by simp [hpc]) (by simp [hpc]) fun _ _ => hd
  | mtpOnChanged hpc => exact { h with
      usb_dozes := fun _ _ => h.usb_dozes (by simp [hpc]) (by simp [hpc])
      mtp := .post _ _ _
      adb := .due _ _ (.inr rfl) }
  | adbOnChanged hpc => exact { h with
      usb_dozes := fun _ _ => h.usb_dozes (by simp [hpc]) (by simp [hpc])
      mtp := h.mtp.mono fun ho => absurd (hpc.symm.trans ho) nofun
      adb := .post _ _ _ }
  | usbNothing hpc pc hpc' =>
    have hd := h.usb_dozes (by simp [hpc]) (by simp [hpc])
    exact h.usbStep (by simp [hpc]) (by simp [hpc]) fun _ _ => hd
  | usbRecv hpc w hw => exact { h with
      usb := .take hw _ _
      usb_le := (Watcher.take_seen hw).trans_le h.usb_le
      usb_dozes := fun hn => absurd rfl hn
      mtp := by
        rw [Watcher.take_seen hw]
        exact h.mtp.mono fun ho => absurd (hpc.symm.trans ho) nofun
      adb := by
        rw [Watcher.take_seen hw]
        refine h.adb.mono ?_
        rintro (ho | ho)
        · exact absurd (hpc.symm.trans ho) nofun
        · exact absurd (hpc.symm.trans ho) nofun }
  | mtp a p hp => exact { h with
      mtp := Poller.told_step h.mtp h.usb_le hp
      mtp_le := Poller.seen_le h.mtp_le hp
      mtp_dozes := h.mtp_dozes.step hp }
  | mtpQuitPost => exact { h with mtp := .post _ _ _ }
  | cmd a p hp => exact { h with
      cmd := Poller.told_step h.cmd (Nat.le_refl _) hp
      cmd_le := Poller.seen_le h.cmd_le hp
      cmd_dozes := h.cmd_dozes.step hp }
  | cmdQuitPost => exact { h with cmd := .post _ _ _ }
  | quit usbQuit adbQuit => exact { h with }
  | adbTake hpc w hw => exact { h with
      adb := .take hw _ _
      adb_le := (Watcher.take_seen hw).trans_le h.adb_le
      adb_dozes := trivial }
  | adbFail hpc =>
    have hd := h.adb_dozes
    simp only [AdbDozes, hpc] at hd
    exact { h with adb_dozes := hd }
  | adbStop ok hpc => exact { h with adb_dozes := trivial }
  | adbOk hpc => exact { h with adb_dozes := trivial }
  | adbPoll hpc =>
    have hd := h.adb_dozes
    unfold AdbDozes at hd
    rcases hpc with hpc | ⟨n, k, hpc⟩
    · rw [hpc] at hd
      exact { h with adb_dozes := hd }
    · rw [hpc] at hd
      exact { h with adb_dozes := hd }
  | adbProbe nRetry dwCnt hpc => exact { h with adb_dozes := trivial }
  | adbNoEnum nRetry dwCnt hpc => exact { h with
      adb := .look h.usb_le _ _
      adb_le := Nat.le_refl _
      adb_dozes := rfl }
  | adbEnum nRetry dwCnt hpc ids m hm => exact { h with
      adb := .look h.usb_le _ _
      adb_le := Nat.le_refl _
      adb_dozes := rfl
      cmd := by
        obtain ⟨t, ha, rfl⟩ := AdbMonState.step_some hm
        exact h.cmd.mono (Or.imp_right fun ho => ha.attaching nofun ho) }
  | adbEnumerated nRetry dwCnt hpc hidle =>
    have hd := h.adb_dozes
    simp only [AdbDozes, hpc] at hd
    exact { h with adb_dozes := hd }
  | adbUpdate d itr hpc answer u hu =>
    have hd := h.adb_dozes
    simp only [AdbDozes, hpc] at hd
    have hdozes : AdbDozes (s.update d itr u) := by
      unfold AdbDozes update
      cases u.bChanged with
      | false => exact hd
      | true => exact hd
    exact { h with adb_dozes := hdozes }
  | adbAnnounce d itr hpc =>
    have hd := h.adb_dozes
    simp only [AdbDozes, hpc] at hd
    exact { h with adb_dozes := hd }
  | adbUpdated hpc =>
    have hd := h.adb_dozes
    simp only [AdbDozes, hpc] at hd
    exact { h with adb_dozes := hd }
  | adbQuitPost => exact { h with adb := .post _ _ _, adb_dozes := h.adb_dozes }
  | adbUnload hpc m hm => exact { h with
      adb_dozes := trivial
      cmd := by
        obtain ⟨t, ha, rfl⟩ := AdbMonState.step_some hm
        exact h.cmd.mono (Or.imp_right fun ho => ha.attaching nofun ho) }
  | mon a ha m hm => exact h.mon hm

theorem informed_reach (h : (machine Id).Reach s) : Informed s := by
  refine h.invariant ?_ fun s a s' hi hs => hi.step (moves hs)
  rintro _ rfl
  exact {
    usb := .inr (.inr (.inl rfl))
    usb_le := Nat.zero_le _
    usb_dozes := fun hn => absurd rfl hn
    mtp := .inl (Nat.le_refl _)
    mtp_le := Nat.zero_le _
    mtp_dozes := fun _ => rfl
    adb := .inl (Nat.le_refl _)
    adb_le := Nat.zero_le _
    adb_dozes := rfl
    cmd := .inr (.inl Nat.one_pos)
    cmd_le := Nat.le_refl _
    cmd_dozes := fun _ => rfl }

/-- **No change is overlooked.**  While the USB thread waits with nothing to receive, a thread that waits with its
semaphore at 0 has begun to enumerate after the last change of the bus; and the thread of the requests, once it waits,
its semaphore is at 0, no message is on its way and no device is being attached, has read the table after the last of
both. -/
theorem changes_seen (h : (machine Id).Reach s) :
    (s.usbPc = .waitUEvent → s.usb.sem = 0 →
      (s.mtp.pc = .waiting → s.mtp.sem = 0 → s.mtp.seen = s.bus) ∧
      (s.adbPc = .waiting → s.adb.sem = 0 → s.adb.seen = s.bus)) ∧
    (s.cmd.pc = .waiting → s.cmd.sem = 0 → s.onWay = 0 → s.mon.pc.attaching = false →
      s.cmd.seen = s.rows + s.attaches) := by
  have hi := informed_reach h
  refine ⟨fun hpc h0 => ?_, fun hpc h0 hway hatt => ?_⟩
  · have hbus : s.bus ≤ s.usb.seen := hi.usb.rest h0 (hi.usb_dozes (by simp [hpc]) (by simp [hpc])) id
    refine ⟨fun hm hm0 => ?_, fun ha ha0 => ?_⟩
    · have hle := Poller.rest hi.mtp hi.mtp_dozes hm hm0 (by simp [OwesMtp, hpc])
      have := hi.mtp_le
      omega
    · have hd := hi.adb_dozes
      simp only [AdbDozes, ha] at hd
      have hle := hi.adb.rest ha0 hd (by simp [OwesAdb, hpc])
      have := hi.adb_le
      omega
  · have hle := Poller.rest hi.cmd hi.cmd_dozes hpc h0 (by simp [OwesCmd, hway, hatt])
    have := hi.cmd_le
    omega

/-- A device that is not up yet, and one that is. -/
def notYet : StateAnswer := ⟨fun _ => 0, noChild, noChild⟩

def bootComplete : StateAnswer :=
  ⟨fun _ => 0, oneLine (ascii "unknown\r\n") (by decide), oneLine (ascii "1\r\n") (by decide)⟩

/-- A device is on the bus when the threads start; it boots between two polls. -/
def bootRun : List (WatchStep Nat) :=
  [.usbTest, .usbOnChanged, .usbOnChanged, .usbTest, .mtp .take, .mtp .test, .mtp .done, .adbTake, .adbTest,
    .adbCount 1, .adbEnum (some [7]), .mon .scan, .mon .addRef, .mon .onAttached, .mon .popFront, .adbEnumerated,
    .adbCompare, .adbUpdate notYet, .adbUpdated, .cmd .take, .cmd .test, .cmd .done, .cmd .take, .cmd .test, .cmd .done,
    .adbFail, .adbTest, .adbUpdate bootComplete, .adbAnnounce, .adbUpdated]

theorem changes_seen_boot : ∃ s, (machine Nat).run start bootRun = some s ∧ s.mtp.seen = 1 ∧ s.adb.seen = 1 ∧
    s.cmd.seen = 1 := by
  obtain ⟨s, hs, hv⟩ := Option.map_eq_some_iff.1 (show ((machine Nat).run start bootRun).map
    (fun s => ((s.usbPc, s.mtp.pc, s.adbPc, s.cmd.pc), [s.usb.sem, s.mtp.sem, s.adb.sem, s.cmd.sem, s.onWay],
      [s.bus, s.rows + s.attaches], s.mon.pc.attaching)) =
      some ((.waitUEvent, .waiting, .waiting, .waiting), [0, 0, 0, 0, 0], [1, 1], false) by decide +kernel)
  simp only [Prod.mk.injEq, List.cons.injEq, and_true] at hv
  obtain ⟨⟨husb, hmtp, hadb, hcmd⟩, ⟨h1, h2, h3, h4, h5⟩, ⟨hbus, hnews⟩, hatt⟩ := hv
  obtain ⟨hb, hc⟩ := changes_seen (Machine.Reach.run (.init rfl) hs)
  obtain ⟨hm, ha⟩ := hb husb h1
  exact ⟨s, hs, (hm hmtp h2).trans hbus, (ha hadb h3).trans hbus, (hc hcmd h4 h5 hatt).trans hnews⟩

/-! ## The devices' states -/

theorem updateState_ok {deviceState : DevState} {answer : StateAnswer} {u : StateUpdate}
    (h : updateState deviceState answer.buf answer.bootmode answer.bootcomplete = .ok u) :
    (deviceState ≠ .booting ∧ u = ⟨deviceState, true, false⟩) ∨
      (deviceState = .booting ∧
        (u = ⟨.charger, true, true⟩ ∨ u = ⟨.main, true, true⟩ ∨ u = ⟨.booting, false, false⟩)) := by
  unfold updateState at h
  split at h
  · cases h
    exact .inl ⟨‹_›, rfl⟩
  · refine .inr ⟨not_not.1 ‹_›, ?_⟩
    split at h
    · cases h
    · dsimp only at h
      split at h
      · cases h
        exact .inl rfl
      · split at h
        · cases h
        · split at h
          · cases h
            exact .inr (.inl rfl)
          · cases h
            exact .inr (.inr rfl)

def Booting (s : WatchState Id) (ds : List (SmartDev Id)) : Prop := ∃ d ∈ ds, s.mon.adb.deviceState d = .booting

def Settled (st : DevState) : Prop := st = .charger ∨ st = .main

/-- What `bQueryAgain` says, where the ADB thread is. -/
def Queried (s : WatchState Id) : Prop := match s.adbPc with
  | .waiting | .returned _ => s.mon.pc = .idle ∧ (s.bQueryAgain = true ↔ s.Booting s.mon.deviceList)
  | .counting | .probing _ _ | .comparing _ _ | .stopped => s.mon.pc = .idle
  | .enumerating _ _ => True
  | .updating itr => s.mon.pc = .idle ∧
    ∃ done, s.mon.deviceList = done ++ itr ∧ (s.bQueryAgain = true ↔ s.Booting done)
  | .changed d itr => s.mon.pc = .idle ∧ ∃ done, s.mon.deviceList = done ++ d :: itr ∧
    Settled (s.mon.adb.deviceState d) ∧ s.announced d = [] ∧ (s.bQueryAgain = true ↔ s.Booting done)
  | .unloading => s.mon.pc.leaving = true ∧ s.mon.deviceList = []

/-- What was announced of a device of this state, but for an announcement to come. -/
def Announced (st : DevState) (l : List DevState) : Prop := (¬ Settled st ∧ l = []) ∨ (Settled st ∧ l = [st])

structure Polled (s : WatchState Id) : Prop where
  lists : s.mon.Lists
  queried : s.Queried
  announced : ∀ d, (∀ itr, s.adbPc ≠ .changed d itr) → Announced (s.mon.adb.deviceState d) (s.announced d)
  new : ∀ d, s.mon.created ≤ d.pDevice → s.announced d = [] ∧ s.mon.adb.deviceState d = .off

section
omit [DecidableEq Id]

@[simp] theorem monStep_mon (s : WatchState Id) (a : AdbMonStep Id) (m : AdbMonState Id) : (s.monStep a m).mon = m := by
  unfold monStep
  split <;> rfl

@[simp] theorem monStep_adbPc (s : WatchState Id) (a : AdbMonStep Id) (m : AdbMonState Id) :
    (s.monStep a m).adbPc = s.adbPc := by
  unfold monStep
  split <;> rfl

@[simp] theorem monStep_bQueryAgain (s : WatchState Id) (a : AdbMonStep Id) (m : AdbMonState Id) :
    (s.monStep a m).bQueryAgain = s.bQueryAgain := by
  unfold monStep
  split <;> rfl

@[simp] theorem monStep_announced (s : WatchState Id) (a : AdbMonStep Id) (m : AdbMonState Id) :
    (s.monStep a m).announced = s.announced := by
  unfold monStep
  split <;> rfl

end

theorem Polled.mon (h : Polled s) {a : AdbMonStep Id} (ha : a.inner = true) {m : AdbMonState Id}
    (hm : s.mon.step a = some m) : Polled (s.monStep a m) := by
  have hlists : m.Lists := h.lists.step hm
  obtain ⟨t, hact, rfl⟩ := AdbMonState.step_some hm
  -- outside of `ProcessDevices` neither the list nor a state changes
  have hidle : s.mon.pc = .idle → t.pc = .idle ∧ t.deviceList = s.mon.deviceList ∧
      t.adb.deviceState = s.mon.adb.deviceState := by
    intro hpc
    obtain ⟨hpc', hl, hc⟩ := hact.idle_keeps ha hpc
    refine ⟨hpc', hl, ?_⟩
    rcases hact.states ha with ⟨hst, -⟩ | ⟨szId, -, hc'⟩
    · exact hst
    · omega
  refine ⟨by simpa using hlists, ?_, fun d hd => ?_, fun d hd => ?_⟩
  · have hq := h.queried
    simp only [Queried, monStep_adbPc, monStep_mon, monStep_bQueryAgain, monStep_announced, Booting,
      AdbMonState.tally] at hq ⊢
    cases hpc : s.adbPc with
    | waiting =>
      simp only [hpc] at hq ⊢
      obtain ⟨h1, h2, h3⟩ := hidle hq.1
      rw [h2, h3]
      exact ⟨h1, hq.2⟩
    | returned ok =>
      simp only [hpc] at hq ⊢
      obtain ⟨h1, h2, h3⟩ := hidle hq.1
      rw [h2, h3]
      exact ⟨h1, hq.2⟩
    | updating itr =>
      simp only [hpc] at hq ⊢
      obtain ⟨h1, h2, h3⟩ := hidle hq.1
      rw [h2, h3]
      exact ⟨h1, hq.2⟩
    | changed d itr =>
      simp only [hpc] at hq ⊢
      obtain ⟨h1, h2, h3⟩ := hidle hq.1
      rw [h2, h3]
      exact ⟨h1, hq.2⟩
    | enumerating nRetry dwCnt => trivial
    | unloading =>
      simp only [hpc] at hq ⊢
      exact hact.leaving ha hq.1 hq.2
    | _ =>
      simp only [hpc] at hq ⊢
      exact (hidle hq).1
  · simp only [monStep_adbPc, monStep_mon, monStep_announced, AdbMonState.tally] at hd ⊢
    rcases hact.states ha with ⟨hst, -⟩ | ⟨szId, hst, -⟩
    · rw [hst]
      exact h.announced d hd
    · rw [hst]
      by_cases hnew : d = ⟨s.mon.created, szId⟩
      · subst hnew
        rw [Function.update_self]
        exact .inl ⟨nofun, (h.new _ (Nat.le_refl _)).1⟩
      · rw [Function.update_of_ne hnew]
        exact h.announced d hd
  · simp only [monStep_mon, monStep_announced, AdbMonState.tally] at hd ⊢
    rcases hact.states ha with ⟨hst, hc⟩ | ⟨szId, hst, hc⟩
    · rw [hst]
      exact h.new d (by omega)
    · have hne : d ≠ ⟨s.mon.created, szId⟩ := by
        rintro rfl
        simp only at hd
        omega
      rw [hst, Function.update_of_ne hne]
      exact h.new d (by omega)

/-- **A device is asked for its state.** -/
theorem Polled.update (h : Polled s) {d : SmartDev Id} {itr : List (SmartDev Id)} (hpc : s.adbPc = .updating (d :: itr))
    {answer : StateAnswer} {u : StateUpdate}
    (hu : updateState (s.mon.adb.deviceState d) answer.buf answer.bootmode answer.bootcomplete = .ok u) :
    Polled (s.update d itr u) := by
  have hq := h.queried
  simp only [Queried, hpc] at hq
  obtain ⟨hidle, done, hl, hb⟩ := hq
  have hd := h.announced d (by simp [hpc])
  have hmem : d ∈ s.mon.deviceList := by simp [hl]
  have hknown : d.pDevice < s.mon.created := h.lists.known d (List.mem_append_left _ hmem)
  -- a device that stays as it is
  have hsame : u.deviceState = s.mon.adb.deviceState d → u.bChanged = false →
      (u.bFinished = false ↔ s.mon.adb.deviceState d = .booting) → Polled (s.update d itr u) := by
    intro hst hch hfin
    have heq : s.update d itr u = { s with bQueryAgain := s.bQueryAgain || !u.bFinished, adbPc := .updating itr } := by
      unfold WatchState.update
      rw [hst, Function.update_eq_self, hch]
      rfl
    rw [heq]
    refine ⟨h.lists, ⟨hidle, done ++ [d], by simp [hl], ?_⟩, fun e _ => h.announced e (by simp [hpc]), h.new⟩
    simp only [Bool.or_eq_true, hb, Bool.not_eq_true', hfin, Booting]
    simp [or_and_right, exists_or]
  -- one that has booted
  have hboot : s.mon.adb.deviceState d = .booting → ∀ st, Settled st → u = ⟨st, true, true⟩ →
      Polled (s.update d itr u) := by
    rintro hst st hset rfl
    have hnd : d ∉ done := by
      have hn := h.lists.nodup
      rw [hl] at hn
      intro hm
      have := List.disjoint_of_nodup_append (List.nodup_append.1 hn).1 hm
      simp at this
    have hother : ∀ e, e ≠ d → Function.update s.mon.adb.deviceState d st e = s.mon.adb.deviceState e :=
      fun e he => Function.update_of_ne he ..
    have hann : s.announced d = [] := by
      rcases hd with ⟨-, hl⟩ | ⟨hs, -⟩
      · exact hl
      · rw [hst] at hs
        rcases hs with hs | hs <;> cases hs
    refine ⟨⟨h.lists.center, h.lists.nodup, h.lists.known, h.lists.attaches, h.lists.detaches⟩, ⟨hidle, done, hl, ?_⟩,
      fun e he => ?_, fun e he => ?_⟩
    · refine ⟨?_, hann, ?_⟩
      · simpa [WatchState.update] using hset
      · simp only [WatchState.update, Bool.not_true, Bool.or_false, Booting, hb]
        refine exists_congr fun e => and_congr_right fun he => ?_
        rw [hother e fun heq => hnd (heq ▸ he)]
    · have hne : e ≠ d := by
        rintro rfl
        exact he itr rfl
      simp only [WatchState.update, hother e hne]
      exact h.announced e (by simp [hpc])
    · have hne : e ≠ d := by
        rintro rfl
        simp only [WatchState.update] at he
        omega
      simp only [WatchState.update, hother e hne]
      exact h.new e he
  rcases updateState_ok hu with ⟨hn, rfl⟩ | ⟨hst, rfl | rfl | rfl⟩
  · exact hsame rfl rfl (iff_of_false (by simp) hn)
  · exact hboot hst _ (.inl rfl) rfl
  · exact hboot hst _ (.inr rfl) rfl
  · exact hsame hst.symm rfl (iff_of_true rfl hst)

/-- **Its new state is announced.** -/
theorem Polled.announce (h : Polled s) {d : SmartDev Id} {itr : List (SmartDev Id)} (hpc : s.adbPc = .changed d itr) :
    Polled { s with
      adbPc := .updating itr
      announced := Function.update s.announced d (s.announced d ++ [s.mon.adb.deviceState d]) } := by
  have hq := h.queried
  simp only [Queried, hpc] at hq
  obtain ⟨hidle, done, hl, hset, hann, hb⟩ := hq
  have hknown : d.pDevice < s.mon.created := h.lists.known d (List.mem_append_left _ (by simp [hl]))
  refine ⟨h.lists, ⟨hidle, done ++ [d], by simp [hl], ?_⟩, fun e _ => ?_, fun e he => ?_⟩
  · have hnb : s.mon.adb.deviceState d ≠ .booting := by
      intro hst
      rw [hst] at hset
      rcases hset with hs | hs <;> cases hs
    rw [hb]
    simp [Booting, or_and_right, exists_or, hnb]
  · by_cases hed : e = d
    · subst hed
      simp only [Function.update_self, hann, List.nil_append]
      exact .inr ⟨hset, rfl⟩
    · simp only [Function.update_of_ne hed]
      refine h.announced e fun itr' heq => ?_
      rw [hpc] at heq
      cases heq
      exact hed rfl
  · have hne : e ≠ d := by
      rintro rfl
      simp only at he
      omega
    simp only [Function.update_of_ne hne]
    exact h.new e he

/-- `ProcessDevices` is called. -/
theorem Polled.processDevices (h : Polled s) {ids : List Id} {m : AdbMonState Id}
    (hm : s.mon.step (.processDevices ids) = some m) (hpc : ∀ d itr, s.adbPc ≠ .changed d itr) (pc : AdbThreadPc Id)
    (hq : Queried { s with mon := m, adbPc := pc }) (w : Watcher) :
    Polled { s with mon := m, adbPc := pc, adb := w } := by
  have hlists : m.Lists := h.lists.step hm
  obtain ⟨t, hact, rfl⟩ := AdbMonState.step_some hm
  cases hact with
  | processDevices _ hidle =>
    exact ⟨hlists, hq, fun d _ => h.announced d (hpc d), h.new⟩

theorem Polled.step (h : Polled s) (hs : Moves s s') : Polled s' := by
  have hq := h.queried
  unfold Queried at hq
  cases hs with
  | adbTake hpc w hw =>
    rw [hpc] at hq
    exact { h with queried := hq, announced := fun d _ => h.announced d (by simp [hpc]) }
  | adbFail hpc =>
    rw [hpc] at hq
    exact { h with queried := hq, announced := fun d _ => h.announced d (by simp [hpc]) }
  | adbStop ok hpc =>
    rw [hpc] at hq
    exact { h with queried := hq.1, announced := fun d _ => h.announced d (by simp [hpc]) }
  | adbOk hpc =>
    rw [hpc] at hq
    exact { h with queried := hq.1, announced := fun d _ => h.announced d (by simp [hpc]) }
  | adbPoll hpc =>
    have hidle : s.mon.pc = .idle ∧ ∀ d itr, s.adbPc ≠ .changed d itr := by
      rcases hpc with hpc | ⟨n, k, hpc⟩
      · rw [hpc] at hq
        exact ⟨hq.1, by simp [hpc]⟩
      · rw [hpc] at hq
        exact ⟨hq, by simp [hpc]⟩
    exact { h with
      queried := ⟨hidle.1, [], rfl, iff_of_false nofun (by simp [Booting])⟩
      announced := fun d _ => h.announced d (hidle.2 d) }
  | adbProbe nRetry dwCnt hpc =>
    have hidle : s.mon.pc = .idle ∧ ∀ d itr, s.adbPc ≠ .changed d itr := by
      rcases hpc with hpc | ⟨n, k, hpc⟩
      · rw [hpc] at hq
        exact ⟨hq, by simp [hpc]⟩
      · rw [hpc] at hq
        exact ⟨hq, by simp [hpc]⟩
    exact { h with queried := hidle.1, announced := fun d _ => h.announced d (hidle.2 d) }
  | adbNoEnum nRetry dwCnt hpc =>
    rw [hpc] at hq
    exact { h with queried := hq, announced := fun d _ => h.announced d (by simp [hpc]) }
  | adbEnum nRetry dwCnt hpc ids m hm => exact h.processDevices hm (by simp [hpc]) (.enumerating nRetry dwCnt) trivial _
  | adbEnumerated nRetry dwCnt hpc hidle =>
    exact { h with queried := hidle, announced := fun d _ => h.announced d (by simp [hpc]) }
  | adbUpdate d itr hpc answer u hu => exact h.update hpc hu
  | adbAnnounce d itr hpc => exact h.announce hpc
  | adbUpdated hpc =>
    rw [hpc] at hq
    obtain ⟨hidle, done, hl, hb⟩ := hq
    rw [List.append_nil] at hl
    subst hl
    exact { h with queried := ⟨hidle, hb⟩, announced := fun d _ => h.announced d (by simp [hpc]) }
  | adbUnload hpc m hm =>
    refine h.processDevices hm (by simp [hpc]) .unloading ?_ _
    obtain ⟨t, hact, rfl⟩ := AdbMonState.step_some hm
    cases hact with
    | processDevices _ hidle => exact ⟨rfl, rfl⟩
  | mon a ha m hm => exact h.mon ha hm
  | _ => exact { h with }

theorem polled_reach (h : (machine Id).Reach s) : Polled s := by
  refine h.invariant ?_ fun s a s' hi hs => hi.step (moves hs)
  rintro _ rfl
  exact {
    lists := AdbMonState.lists_start
    queried := ⟨rfl, iff_of_false nofun (by simp [Booting, start, AdbMonState.start])⟩
    announced := fun d _ => .inl ⟨fun hs => hs.elim nofun nofun, rfl⟩
    new := fun d _ => ⟨rfl, rfl⟩ }

/-- **The poll.**  The ADB thread waits without a timeout exactly when no device of its list is still booting; each
device's state is announced once, when it has booted; and after `Unload` no device is left in a list. -/
theorem states_announced (h : (machine Id).Reach s) :
    (s.adbPc = .waiting → (s.bQueryAgain = true ↔ ∃ d ∈ s.mon.deviceList, s.mon.adb.deviceState d = .booting)) ∧
    (∀ d, (∀ itr, s.adbPc ≠ .changed d itr) → s.announced d =
      if s.mon.adb.deviceState d = .charger ∨ s.mon.adb.deviceState d = .main then [s.mon.adb.deviceState d] else []) ∧
    (s.adbPc = .unloading → s.mon.pc = .idle → s.mon.deviceList = [] ∧ s.mon.center.deviceList = []) := by
  have hp := polled_reach h
  have hq := hp.queried
  unfold Queried at hq
  refine ⟨fun hpc => ?_, fun d hd => ?_, fun hpc hidle => ?_⟩
  · rw [hpc] at hq
    exact hq.2
  · rcases hp.announced d hd with ⟨hn, hl⟩ | ⟨hs, hl⟩
    · exact hl.trans (if_neg hn).symm
    · exact hl.trans (if_pos hs).symm
  · rw [hpc] at hq
    have hc := hp.lists.center
    rw [hq.2, hidle] at hc
    exact ⟨hq.2, List.perm_nil.1 hc⟩

theorem states_announced_boot : ∃ s, (machine Nat).run start bootRun = some s ∧ s.bQueryAgain = false ∧
    s.announced ⟨0, 7⟩ = [.main] := by
  obtain ⟨s, hs, hv⟩ := Option.map_eq_some_iff.1 (show ((machine Nat).run start bootRun).map
    (fun s => (s.adbPc, s.mon.deviceList, s.mon.adb.deviceState ⟨0, 7⟩)) =
      some (.waiting, [⟨0, 7⟩], .main) by decide +kernel)
  simp only [Prod.mk.injEq] at hv
  obtain ⟨hpc, hl, hst⟩ := hv
  obtain ⟨hq, ha, -⟩ := states_announced (Machine.Reach.run (.init rfl) hs)
  have hann := ha ⟨0, 7⟩ (by simp [hpc])
  rw [hst] at hann
  refine ⟨s, hs, ?_, hann⟩
  have hnot := hq hpc
  rw [hl] at hnot
  simpa [hst] using hnot

end WatchState
end DevMgr
