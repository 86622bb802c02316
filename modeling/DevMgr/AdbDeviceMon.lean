import DevMgr.DeviceCenter
import DevMgr.Matching
import DevMgr.SmartDeviceAdb
/-!
# AdbDeviceMon — the devices that the monitor knows

`AdbDeviceMon::ProcessDevices` makes `_DeviceList` that of the ids it is given, and tells `DeviceCenter` of the devices
that are new and of those that are gone.  Only the monitor thread touches `_DeviceList`; a step is a region under a lock
of `DeviceCenter` or a change of a reference count.  Other threads get devices from `DeviceCenter` and release them, and
the command queues go on as in `SmartDeviceAdb`, where only the destructor calls `FlushCmds`.

A device is known by `pDevice`, the number of its `new`.  `got` are the references of callers of `GetDevice`, `deaths`
how often a `Release` brought a count to 0; `szDevId`, `old`, `firstNew`, `attached` and `detached` are, of the last
`ProcessDevices`, the ids it was given, the devices and the number of the devices made before it, and those it reported.
`alreadyExists` and `notFound` say whether `DeviceCenter` refused one.
-/
namespace DevMgr

open Machines Matching

structure SmartDev (Id : Type) where
  pDevice : Nat
  deviceId : Id
  deriving DecidableEq, Repr

/-- The tables that observe commands observe the devices too. -/
abbrev DevObserver := CmdObserver

/-- Where the monitor thread is: outside `ProcessDevices`; in its loops over the ids and over what they leave of
`NewList`; inside `OnDeviceAttached`, before its `AddRef` or its calls of the observers; inside `OnDeviceDetached`,
before its `Release` or its calls; or before its own `Release`. -/
inductive AdbMonPc (Id : Type) where
  | idle
  | scanning (newList : List (SmartDev Id)) (todo : List Id)
  | addRef (d : SmartDev Id) (newList : List (SmartDev Id)) (todo : List Id)
  | onAttached (d : SmartDev Id) (newList : List (SmartDev Id)) (todo : List Id)
  | release (d : SmartDev Id) (newList : List (SmartDev Id))
  | onDetached (d : SmartDev Id) (newList : List (SmartDev Id))
  | dropping (d : SmartDev Id) (newList : List (SmartDev Id))
  deriving DecidableEq, Repr

structure AdbMonState (Id : Type) where
  adb : AdbState (SmartDev Id)
  center : DeviceCenter (SmartDev Id) DevObserver
  deviceList : List (SmartDev Id)
  pc : AdbMonPc Id
  created : Nat
  got : SmartDev Id → Nat
  deaths : SmartDev Id → Nat
  szDevId : List Id
  old : List (SmartDev Id)
  firstNew : Nat
  attached : List (SmartDev Id)
  detached : List (SmartDev Id)
  alreadyExists : Bool
  notFound : Bool

inductive AdbMonStep (Id : Type) where
  | processDevices (szDevId : List Id)
  | scan
  | addRef
  | onAttached
  | popFront
  | centerRelease
  | onDetached
  | drop
  | getDevice (szId : Id)
  | release (d : SmartDev Id)
  | adb (a : AdbStep (SmartDev Id))

/-- The steps of the command queues: not those that make a device or change the references outside. -/
def AdbStep.inQueues {Dev : Type} : AdbStep Dev → Bool
  | .newDevice _ | .addRef _ | .release _ => false
  | _ => true

namespace AdbState

variable {Dev : Type} [DecidableEq Dev]

def construct (s : AdbState Dev) (d : Dev) : AdbState Dev :=
  { s with
    created := Function.update s.created d true, lRefCnt := Function.update s.lRefCnt d 1
    holders := Function.update s.holders d 1, deviceState := Function.update s.deviceState d .booting }

def hold (s : AdbState Dev) (d : Dev) : AdbState Dev :=
  { s.addRef d with holders := Function.update s.holders d (s.holders d + 1) }

def unhold (s : AdbState Dev) (d : Dev) : AdbState Dev :=
  { s.release d with holders := Function.update s.holders d (s.holders d - 1) }

/-- The device whose `Release` a step calls. -/
def released (s : AdbState Dev) : AdbStep Dev → Option Dev
  | .release d => some d
  | .releaseDev w => match s.worker w with
    | .releasing d => some d
    | _ => none
  | _ => none

end AdbState

/-- The devices of `NewList`, and of a call of `OnDeviceAttached`. -/
def AdbMonPc.listed {Id : Type} : AdbMonPc Id → List (SmartDev Id)
  | .idle => []
  | .scanning l _ => l
  | .addRef d l _ | .onAttached d l _ => d :: l
  | .release _ l | .onDetached _ l | .dropping _ l => l

/-- The devices that the monitor has besides those of `_DeviceList`. -/
def AdbMonPc.held {Id : Type} : AdbMonPc Id → List (SmartDev Id)
  | .idle => []
  | .scanning l _ => l
  | .addRef d l _ | .onAttached d l _ | .release d l | .onDetached d l | .dropping d l => d :: l

namespace AdbMonState

variable {Id : Type} [DecidableEq Id]

/-- `new SmartDeviceAdb`, and the first section of its `OnDeviceAttached`. -/
def attach (s : AdbMonState Id) (d : SmartDev Id) (newList : List (SmartDev Id)) (todo : List Id) : AdbMonState Id :=
  let s := { s with adb := s.adb.construct d, created := s.created + 1, attached := s.attached ++ [d] }
  match s.center.onDeviceAttached d with
  | none => { s with alreadyExists := true, deviceList := s.deviceList ++ [d], pc := .scanning newList todo }
  | some center => { s with center := center, pc := .addRef d newList todo }

/-- The first section of `OnDeviceDetached`. -/
def detach (s : AdbMonState Id) (d : SmartDev Id) (newList : List (SmartDev Id)) : AdbMonState Id :=
  let s := { s with detached := s.detached ++ [d] }
  match s.center.onDeviceDetached d with
  | none => { s with notFound := true, pc := .dropping d newList }
  | some center => { s with center := center, pc := .release d newList }

section
variable {s : AdbMonState Id} {d : SmartDev Id} {newList : List (SmartDev Id)} {todo : List Id}
  {center : DeviceCenter (SmartDev Id) DevObserver}

theorem attach_none (h : s.center.onDeviceAttached d = none) : s.attach d newList todo = { s with
    adb := s.adb.construct d, created := s.created + 1, attached := s.attached ++ [d], alreadyExists := true
    deviceList := s.deviceList ++ [d], pc := .scanning newList todo } := by
  simp only [attach, h]

theorem attach_some (h : s.center.onDeviceAttached d = some center) : s.attach d newList todo = { s with
    adb := s.adb.construct d, created := s.created + 1, attached := s.attached ++ [d], center := center
    pc := .addRef d newList todo } := by
  simp only [attach, h]

theorem detach_none (h : s.center.onDeviceDetached d = none) : s.detach d newList = { s with
    detached := s.detached ++ [d], notFound := true, pc := .dropping d newList } := by
  simp only [detach, h]

theorem detach_some (h : s.center.onDeviceDetached d = some center) : s.detach d newList = { s with
    detached := s.detached ++ [d], center := center, pc := .release d newList } := by
  simp only [detach, h]

end

def act (s : AdbMonState Id) : AdbMonStep Id → Option (AdbMonState Id)
  | .processDevices szDevId => match s.pc with
    | .idle => some { s with
        deviceList := [], pc := .scanning s.deviceList szDevId, szDevId := szDevId, old := s.deviceList
        firstNew := s.created, attached := [], detached := [] }
    | _ => none
  | .scan => match s.pc with
    | .scanning newList (szId :: todo) => match takeFirst (fun d => decide (d.deviceId = szId)) newList with
      | none => some (s.attach ⟨s.created, szId⟩ newList todo)
      | some (d, rest) => some { s with deviceList := s.deviceList ++ [d], pc := .scanning rest todo }
    | _ => none
  | .addRef => match s.pc with
    | .addRef d newList todo => some { s with adb := s.adb.hold d, pc := .onAttached d newList todo }
    | _ => none
  | .onAttached => match s.pc with
    | .onAttached d newList todo => some { s with deviceList := s.deviceList ++ [d], pc := .scanning newList todo }
    | _ => none
  | .popFront => match s.pc with
    | .scanning (d :: newList) [] => some (s.detach d newList)
    | .scanning [] [] => some { s with pc := .idle }
    | _ => none
  | .centerRelease => match s.pc with
    | .release d newList => some { s with adb := s.adb.unhold d, pc := .onDetached d newList }
    | _ => none
  | .onDetached => match s.pc with
    | .onDetached d newList => some { s with pc := .dropping d newList }
    | _ => none
  | .drop => match s.pc with
    | .dropping d newList => if 1 < s.adb.holders d ∨ ∀ q, s.adb.call d q = .none then
        some { s with adb := s.adb.unhold d, pc := .scanning newList [] } else none
    | _ => none
  | .getDevice szId => match s.center.getDevice (fun d => decide (d.deviceId = szId)) with
    | none => some s
    | some d => some { s with adb := s.adb.hold d, got := Function.update s.got d (s.got d + 1) }
  | .release d => if 0 < s.got d ∧ (1 < s.adb.holders d ∨ ∀ q, s.adb.call d q = .none) then
      some { s with adb := s.adb.unhold d, got := Function.update s.got d (s.got d - 1) } else none
  | .adb a => if a.inQueues = true then (s.adb.step false a).map fun t => { s with adb := t } else none

/-- The device whose `Release` a step calls. -/
def released (s : AdbMonState Id) : AdbMonStep Id → Option (SmartDev Id)
  | .centerRelease => match s.pc with
    | .release d _ => some d
    | _ => none
  | .drop => match s.pc with
    | .dropping d _ => some d
    | _ => none
  | .release d => some d
  | .adb a => s.adb.released a
  | _ => none

/-- Counts the destructor's run. -/
def tally (s : AdbMonState Id) (released : Option (SmartDev Id)) : AdbMonState Id :=
  { s with deaths := fun d => if released = some d ∧ s.adb.lRefCnt d = 0 then s.deaths d + 1 else s.deaths d }

def step (s : AdbMonState Id) (a : AdbMonStep Id) : Option (AdbMonState Id) :=
  (s.act a).map fun s' => s'.tally (s.released a)

def start : AdbMonState Id :=
  { adb := .start, center := .empty, deviceList := [], pc := .idle, created := 0, got := fun _ => 0
    deaths := fun _ => 0, szDevId := [], old := [], firstNew := 0, attached := [], detached := []
    alreadyExists := false, notFound := false }

def machine (Id : Type) [DecidableEq Id] : Machine (AdbMonState Id) (AdbMonStep Id) where
  init s := s = start
  step := step

variable {s s' : AdbMonState Id} {a : AdbMonStep Id}

/-- **What a step can do.** -/
inductive Acts (s : AdbMonState Id) : AdbMonStep Id → AdbMonState Id → Prop
  | processDevices (szDevId : List Id) (hpc : s.pc = .idle) : Acts s (.processDevices szDevId) { s with
      deviceList := [], pc := .scanning s.deviceList szDevId, szDevId := szDevId, old := s.deviceList
      firstNew := s.created, attached := [], detached := [] }
  | scanNew {newList : List (SmartDev Id)} {szId : Id} {todo : List Id} (hpc : s.pc = .scanning newList (szId :: todo))
      (hf : takeFirst (fun d => decide (d.deviceId = szId)) newList = none) :
      Acts s .scan (s.attach ⟨s.created, szId⟩ newList todo)
  | scanKnown {newList : List (SmartDev Id)} {szId : Id} {todo : List Id} {d : SmartDev Id} {rest : List (SmartDev Id)}
      (hpc : s.pc = .scanning newList (szId :: todo))
      (hf : takeFirst (fun d => decide (d.deviceId = szId)) newList = some (d, rest)) :
      Acts s .scan { s with deviceList := s.deviceList ++ [d], pc := .scanning rest todo }
  | addRef {d : SmartDev Id} {newList : List (SmartDev Id)} {todo : List Id} (hpc : s.pc = .addRef d newList todo) :
      Acts s .addRef { s with adb := s.adb.hold d, pc := .onAttached d newList todo }
  | onAttached {d : SmartDev Id} {newList : List (SmartDev Id)} {todo : List Id}
      (hpc : s.pc = .onAttached d newList todo) :
      Acts s .onAttached { s with deviceList := s.deviceList ++ [d], pc := .scanning newList todo }
  | popFront {d : SmartDev Id} {newList : List (SmartDev Id)} (hpc : s.pc = .scanning (d :: newList) []) :
      Acts s .popFront (s.detach d newList)
  | finish (hpc : s.pc = .scanning [] []) : Acts s .popFront { s with pc := .idle }
  | centerRelease {d : SmartDev Id} {newList : List (SmartDev Id)} (hpc : s.pc = .release d newList) :
      Acts s .centerRelease { s with adb := s.adb.unhold d, pc := .onDetached d newList }
  | onDetached {d : SmartDev Id} {newList : List (SmartDev Id)} (hpc : s.pc = .onDetached d newList) :
      Acts s .onDetached { s with pc := .dropping d newList }
  | drop {d : SmartDev Id} {newList : List (SmartDev Id)} (hpc : s.pc = .dropping d newList)
      (hd : 1 < s.adb.holders d ∨ ∀ q, s.adb.call d q = .none) :
      Acts s .drop { s with adb := s.adb.unhold d, pc := .scanning newList [] }
  | notFound (szId : Id) (hf : s.center.getDevice (fun d => decide (d.deviceId = szId)) = none) :
      Acts s (.getDevice szId) s
  | getDevice (szId : Id) {d : SmartDev Id} (hf : s.center.getDevice (fun d => decide (d.deviceId = szId)) = some d) :
      Acts s (.getDevice szId)
        { s with adb := s.adb.hold d, got := Function.update s.got d (s.got d + 1) }
  | release {d : SmartDev Id} (hg : 0 < s.got d) (hd : 1 < s.adb.holders d ∨ ∀ q, s.adb.call d q = .none) :
      Acts s (.release d) { s with adb := s.adb.unhold d, got := Function.update s.got d (s.got d - 1) }
  | adb {a : AdbStep (SmartDev Id)} {t : AdbState (SmartDev Id)} (ha : a.inQueues = true)
      (ht : s.adb.step false a = some t) : Acts s (.adb a) { s with adb := t }

theorem act_some (h : s.act a = some s') : Acts s a s' := by
  cases a with
  | processDevices szDevId =>
    rw [act] at h
    split at h
    · exact Option.some.inj h ▸ .processDevices szDevId ‹_›
    · cases h
  | scan =>
    rw [act] at h
    split at h
    · split at h
      · exact Option.some.inj h ▸ .scanNew ‹_› ‹_›
      · exact Option.some.inj h ▸ .scanKnown ‹_› ‹_›
    · cases h
  | addRef =>
    rw [act] at h
    split at h
    · exact Option.some.inj h ▸ .addRef ‹_›
    · cases h
  | onAttached =>
    rw [act] at h
    split at h
    · exact Option.some.inj h ▸ .onAttached ‹_›
    · cases h
  | popFront =>
    rw [act] at h
    split at h
    · exact Option.some.inj h ▸ .popFront ‹_›
    · exact Option.some.inj h ▸ .finish ‹_›
    · cases h
  | centerRelease =>
    rw [act] at h
    split at h
    · exact Option.some.inj h ▸ .centerRelease ‹_›
    · cases h
  | onDetached =>
    rw [act] at h
    split at h
    · exact Option.some.inj h ▸ .onDetached ‹_›
    · cases h
  | drop =>
    rw [act] at h
    split at h
    · obtain ⟨hd, rfl⟩ := guard_some h
      exact .drop ‹_› hd
    · cases h
  | getDevice szId =>
    rw [act] at h
    split at h
    · exact Option.some.inj h ▸ .notFound szId ‹_›
    · exact Option.some.inj h ▸ .getDevice szId ‹_›
  | release d =>
    obtain ⟨⟨hg, hd⟩, rfl⟩ := guard_some h
    exact .release hg hd
  | adb a =>
    rw [act] at h
    split at h
    · obtain ⟨t, ht, rfl⟩ := Option.map_eq_some_iff.1 h
      exact .adb ‹_› ht
    · cases h

theorem step_some (h : s.step a = some s') :
    ∃ t, Acts s a t ∧ s' = t.tally (s.released a) := by
  obtain ⟨t, ht, rfl⟩ := Option.map_eq_some_iff.1 h
  exact ⟨t, act_some ht, rfl⟩

/-! ## The two lists -/

/-- **The two lists keep in step**, and `DeviceCenter` never refuses. -/
structure Lists (s : AdbMonState Id) : Prop where
  center : s.center.deviceList.Perm (s.deviceList ++ s.pc.listed)
  nodup : (s.deviceList ++ s.pc.held).Nodup
  known : ∀ d ∈ s.deviceList ++ s.pc.held, d.pDevice < s.created
  attaches : s.alreadyExists = false
  detaches : s.notFound = false

omit [DecidableEq Id] in
/-- A step that only moves the devices about. -/
theorem Lists.congr (h : s.Lists) (h1 : s'.center = s.center)
    (h2 : (s'.deviceList ++ s'.pc.listed).Perm (s.deviceList ++ s.pc.listed))
    (h3 : (s'.deviceList ++ s'.pc.held).Subperm (s.deviceList ++ s.pc.held)) (h4 : s'.created = s.created)
    (h5 : s'.alreadyExists = s.alreadyExists) (h6 : s'.notFound = s.notFound) : s'.Lists := by
  constructor
  · rw [h1]
    exact h.center.trans h2.symm
  · obtain ⟨l, hl, hs⟩ := h3
    exact hl.nodup_iff.1 (h.nodup.sublist hs)
  · rw [h4]
    exact fun d hd => h.known d (h3.subset hd)
  · rw [h5, h.attaches]
  · rw [h6, h.detaches]

omit [DecidableEq Id] in
/-- A step of the thread that leaves the devices where they are. -/
theorem Lists.goes (h : s.Lists) {pc pc' : AdbMonPc Id} (hpc : s.pc = pc)
    (he : pc'.listed = pc.listed ∧ pc'.held = pc.held) (adb : AdbState (SmartDev Id)) :
    Lists { s with adb := adb, pc := pc' } := by
  subst hpc
  refine h.congr rfl ?_ ?_ rfl rfl rfl
  · rw [he.1]
  · rw [he.2]

omit [DecidableEq Id] in
/-- A device that `_DeviceList` gets from `NewList`. -/
theorem Lists.push (h : s.Lists) {d : SmartDev Id} {l l' : List (SmartDev Id)} {todo : List Id}
    (h1 : s.pc.listed = l) (h2 : s.pc.held = l) (hl : l.Perm (d :: l')) :
    Lists { s with deviceList := s.deviceList ++ [d], pc := .scanning l' todo } := by
  have hp : (s.deviceList ++ [d] ++ l').Perm (s.deviceList ++ l) := by
    rw [List.append_assoc]
    exact hl.symm.append_left _
  refine h.congr rfl ?_ ?_ rfl rfl rfl
  · rw [h1]
    exact hp
  · rw [h2]
    exact hp.subperm

omit [DecidableEq Id] in
/-- The new device is not in the lists yet. -/
theorem Lists.new (h : s.Lists) (szId : Id) : (⟨s.created, szId⟩ : SmartDev Id) ∉ s.deviceList ++ s.pc.held :=
  fun hm => lt_irrefl _ (h.known _ hm)

/-- `DeviceCenter` takes every new device. -/
theorem Lists.attach_eq (h : s.Lists) {szId : Id} {newList : List (SmartDev Id)} {todo todo' : List Id}
    (hpc : s.pc = .scanning newList todo) : s.attach ⟨s.created, szId⟩ newList todo' = { s with
      adb := s.adb.construct ⟨s.created, szId⟩, created := s.created + 1, attached := s.attached ++ [⟨s.created, szId⟩]
      center := { s.center with deviceList := s.center.deviceList ++ [⟨s.created, szId⟩] }
      pc := .addRef ⟨s.created, szId⟩ newList todo' } := by
  have hc := h.center
  have hnew := h.new szId
  rw [hpc] at hc hnew
  have hfree : (⟨s.created, szId⟩ : SmartDev Id) ∉ s.center.deviceList := fun hm => hnew (hc.mem_iff.1 hm)
  exact attach_some (if_neg hfree)

/-- `DeviceCenter` has every device that goes. -/
theorem Lists.detach_eq (h : s.Lists) {d : SmartDev Id} {newList : List (SmartDev Id)} {todo : List Id}
    (hpc : s.pc = .scanning (d :: newList) todo) : d ∈ s.center.deviceList ∧ s.detach d newList = { s with
      detached := s.detached ++ [d], center := { s.center with deviceList := s.center.deviceList.erase d }
      pc := .release d newList } := by
  have hc := h.center
  rw [hpc] at hc
  have hm : d ∈ s.center.deviceList := hc.mem_iff.2 (List.mem_append_right _ List.mem_cons_self)
  exact ⟨hm, detach_some (if_pos hm)⟩

theorem Lists.attach (h : s.Lists) {szId : Id} {newList : List (SmartDev Id)} {todo todo' : List Id}
    (hpc : s.pc = .scanning newList todo) : (s.attach ⟨s.created, szId⟩ newList todo').Lists := by
  have hc := h.center
  have hn := h.nodup
  have hk := h.known
  have hnew := h.new szId
  rw [hpc] at hc hn hk hnew
  rw [h.attach_eq hpc]
  constructor
  · exact (hc.append_right _).trans (by
      rw [List.append_assoc]
      exact (List.perm_append_singleton _ newList).append_left _)
  · exact List.nodup_middle.2 (List.nodup_cons.2 ⟨hnew, hn⟩)
  · intro d hd
    rcases List.mem_cons.1 (List.perm_middle.mem_iff.1 hd) with rfl | hd
    · exact Nat.lt_succ_self _
    · exact Nat.lt_succ_of_lt (hk d hd)
  · exact h.attaches
  · exact h.detaches

theorem Lists.detach (h : s.Lists) {d : SmartDev Id} {newList : List (SmartDev Id)} {todo : List Id}
    (hpc : s.pc = .scanning (d :: newList) todo) : (s.detach d newList).Lists := by
  have hc := h.center
  have hn := h.nodup
  have hk := h.known
  rw [hpc] at hc hn hk
  obtain ⟨hm, he⟩ := h.detach_eq hpc
  rw [he]
  constructor
  · exact (List.perm_cons d).1 ((List.perm_cons_erase hm).symm.trans (hc.trans List.perm_middle))
  · exact hn
  · exact hk
  · exact h.attaches
  · exact h.detaches

theorem Lists.act (h : s.Lists) (ha : Acts s a s') : s'.Lists := by
  cases ha with
  | processDevices szDevId hpc =>
    have hp : ([] ++ s.deviceList).Perm (s.deviceList ++ []) := by
      rw [List.append_nil]
      exact .refl _
    refine h.congr rfl ?_ ?_ rfl rfl rfl
    · rw [hpc]
      exact hp
    · rw [hpc]
      exact hp.subperm
  | scanNew hpc hf => exact h.attach hpc
  | scanKnown hpc hf => exact h.push (by rw [hpc]; rfl) (by rw [hpc]; rfl) (takeFirst_perm hf)
  | addRef hpc => exact h.goes hpc ⟨by rfl, by rfl⟩ _
  | onAttached hpc => exact h.push (by rw [hpc]; rfl) (by rw [hpc]; rfl) (.refl _)
  | popFront hpc => exact h.detach hpc
  | finish hpc => exact h.goes hpc ⟨by rfl, by rfl⟩ _
  | centerRelease hpc => exact h.goes hpc ⟨by rfl, by rfl⟩ _
  | onDetached hpc => exact h.goes hpc ⟨by rfl, by rfl⟩ _
  | drop hpc hd =>
    refine h.congr rfl (by rw [hpc]; exact .refl _) ?_ rfl rfl rfl
    rw [hpc]
    exact ((List.sublist_cons_self _ _).append_left _).subperm
  | notFound szId hf => exact h
  | getDevice szId hf => exact h.congr rfl (.refl _) (.refl _) rfl rfl rfl
  | release hg hd => exact h.congr rfl (.refl _) (.refl _) rfl rfl rfl
  | adb ha ht => exact h.congr rfl (.refl _) (.refl _) rfl rfl rfl

theorem Lists.step (h : s.Lists) (hs : s.step a = some s') : s'.Lists := by
  obtain ⟨t, ht, rfl⟩ := step_some hs
  exact (h.act ht).congr rfl (.refl _) (.refl _) rfl rfl rfl

omit [DecidableEq Id] in
theorem lists_start : (start : AdbMonState Id).Lists where
  center := .nil
  nodup := .nil
  known _ h := absurd h List.not_mem_nil
  attaches := rfl
  detaches := rfl

end AdbMonState

end DevMgr
