import DevMgr.DeviceCenter
import DevMgr.SmartDeviceAdb
/-!
# DevTableMod — the `connected` column of the table of tablets

`DevTableMod::Load` clears the table and registers with `DeviceCenter`, which replays `OnAttached` for the devices there
are; the three callbacks write `connected`.  A device is known by its id, the `serial` of its row.  Its calls
(`OnDeviceAttached`, `UpdateState` with `OnDeviceStateChanged`, `OnDeviceDetached`) follow one another, those of
different devices interleave.  `OnAttached` writes 1, the state of a device that boots, and the state of one that has
booted is announced once: a device that has booted when it is replayed keeps the 1.
-/
namespace DevMgr

open Machines

/-- The value of the enumeration. -/
def DevState.code : DevState → Nat
  | .off => 0
  | .booting => 1
  | .charger => 2
  | .main => 3

/-- Where `Load` is: before its `delete`, before the two sections of `RegisterObserver`, or returned. -/
inductive LoadPc where
  | unloaded
  | cleared
  | registered
  | loaded
  deriving DecidableEq, Repr

/-- Where a device is: out of `_DeviceList` or in it, and which call of the observers is due. -/
inductive DevPc where
  | out
  | attaching
  | present
  | changing
  | detaching
  deriving DecidableEq, Repr

/-- Whether the device is in `_DeviceList`. -/
def DevPc.listed : DevPc → Bool
  | .attaching | .present | .changing => true
  | .out | .detaching => false

/-- Whether the table is in `_ObserverList`. -/
def LoadPc.observing : LoadPc → Bool
  | .registered | .loaded => true
  | .unloaded | .cleared => false

structure TabletState (Id : Type) where
  center : DeviceCenter Id CmdObserver
  load : LoadPc
  pc : Id → DevPc
  deviceState : Id → DevState
  connected : Id → Option Nat

inductive TabletStep (Id : Type) where
  | deleteTablets
  | registerObserver
  | replay
  | onDeviceAttached (d : Id)
  | onAttached (d : Id)
  | updateState (d : Id) (charger : Bool)
  | onStateChanged (d : Id)
  | onDeviceDetached (d : Id)
  | onDetached (d : Id)
  deriving DecidableEq, Repr

namespace DevTableMod

variable {Id : Type} [DecidableEq Id]

/-- `replace into tablets (serial,connected) values (..)`. -/
def replaceInto (tablets : Id → Option Nat) (serial : Id) (connected : Nat) : Id → Option Nat :=
  Function.update tablets serial (some connected)

/-- `update tablets set connected=.. where serial=..`. -/
def setConnected (tablets : Id → Option Nat) (serial : Id) (connected : Nat) : Id → Option Nat :=
  Function.update tablets serial ((tablets serial).map fun _ => connected)

def onAttached (tablets : Id → Option Nat) (pDevice : Id) : Id → Option Nat := replaceInto tablets pDevice 1

def onDetached (tablets : Id → Option Nat) (pDevice : Id) : Id → Option Nat := setConnected tablets pDevice 0

def onStateChanged (tablets : Id → Option Nat) (pDevice : Id) (state : DevState) : Id → Option Nat :=
  setConnected tablets pDevice state.code

/-- The replay writes the row of every device in the list. -/
theorem foldl_onAttached (d : Id) : ∀ (l : List Id) (tablets : Id → Option Nat),
    l.foldl onAttached tablets d = if d ∈ l then some 1 else tablets d
  | [], _ => rfl
  | x :: l, tablets => by
    rw [List.foldl_cons, foldl_onAttached d l]
    by_cases hl : d ∈ l
    · rw [if_pos hl, if_pos (List.mem_cons_of_mem x hl)]
    · rw [if_neg hl]
      by_cases hx : d = x
      · rw [hx, if_pos List.mem_cons_self]
        exact Function.update_self ..
      · rw [if_neg fun hm => (List.mem_cons.1 hm).elim hx hl]
        exact Function.update_of_ne hx ..

end DevTableMod

namespace TabletState

open DevTableMod

variable {Id : Type} [DecidableEq Id]

/-- A call of the observers of a device, after which it is where `pc` says. -/
def notify (s : TabletState Id) (d : Id) (pc : DevPc) (write : (Id → Option Nat) → Id → Option Nat) : TabletState Id :=
  { s with
    pc := Function.update s.pc d pc
    connected := if .devTableMod ∈ s.center.observerList then write s.connected else s.connected }

def step (s : TabletState Id) : TabletStep Id → Option (TabletState Id)
  | .deleteTablets => if s.load = .unloaded then some { s with load := .cleared, connected := fun _ => none } else none
  | .registerObserver => if s.load = .cleared then match s.center.registerObserver .devTableMod with
      | none => some { s with load := .loaded }
      | some c => some { s with load := .registered, center := c }
    else none
  | .replay => if s.load = .registered then
      some { s with load := .loaded, connected := s.center.deviceList.foldl onAttached s.connected } else none
  | .onDeviceAttached d => if s.pc d = .out then match s.center.onDeviceAttached d with
      | none => some s
      | some c => some { s with
          center := c, pc := Function.update s.pc d .attaching
          deviceState := Function.update s.deviceState d .booting }
    else none
  | .onAttached d => if s.pc d = .attaching then some (s.notify d .present fun t => onAttached t d) else none
  | .updateState d charger => if s.pc d = .present ∧ s.deviceState d = .booting then some { s with
      pc := Function.update s.pc d .changing
      deviceState := Function.update s.deviceState d (if charger then .charger else .main) } else none
  | .onStateChanged d => if s.pc d = .changing then
      some (s.notify d .present fun t => onStateChanged t d (s.deviceState d)) else none
  | .onDeviceDetached d => if s.pc d = .present then match s.center.onDeviceDetached d with
      | none => some s
      | some c => some { s with center := c, pc := Function.update s.pc d .detaching }
    else none
  | .onDetached d => if s.pc d = .detaching then some (s.notify d .out fun t => onDetached t d) else none

/-- Before `Load`, with no device, and whatever an earlier process left in the table. -/
def start (connected : Id → Option Nat) : TabletState Id :=
  { center := .empty, load := .unloaded, pc := fun _ => .out, deviceState := fun _ => .off, connected := connected }

def machine (Id : Type) [DecidableEq Id] : Machine (TabletState Id) (TabletStep Id) where
  init s := ∃ connected, s = start connected
  step := step

variable {s s' : TabletState Id} {a : TabletStep Id} {d : Id}

/-- **The table tracks the device**: its row has its state if it is attached, and 0, or is not there, if it is not. -/
structure Tracks (s : TabletState Id) (d : Id) : Prop where
  attached : d ∈ s.center.deviceList → s.connected d = some (s.deviceState d).code
  gone : d ∉ s.center.deviceList → ∀ n, s.connected d = some n → n = 0

/-- **A replay of no device that has booted**, unless that it has is still to be announced. -/
def NoneBooted (s : TabletState Id) : TabletStep Id → Prop
  | .replay => ∀ d ∈ s.center.deviceList, s.deviceState d = .booting ∨ s.pc d = .changing
  | _ => True

instance : ∀ (s : TabletState Id) (a : TabletStep Id), Decidable (NoneBooted s a) := by
  intro s a
  cases a <;> dsimp only [NoneBooted] <;> infer_instance

/-- What holds of a device and its row. -/
structure Row (load : LoadPc) (pc : DevPc) (state : DevState) (row : Option Nat) : Prop where
  booting : pc = .attaching → state = .booting
  cleared : load = .cleared → row = none
  gone : load.observing = true → pc = .out → ∀ n, row = some n → n = 0
  attached : load = .loaded → pc = .present → row = some state.code
  changed : load = .loaded → pc = .changing → ∃ n, row = some n

section
variable {load : LoadPc} {pc pc' : DevPc} {state state' : DevState} {row : Option Nat}

theorem ne_cleared (h : load.observing = true) : load ≠ .cleared := by
  rintro rfl
  cases h

/-- Nothing is said of a device before the table observes it, nor while it goes. -/
theorem Row.unsaid (h : Row load pc state row) (hpc : pc' ≠ .attaching)
    (hl : load.observing = false ∨ pc' = .detaching) : Row load pc' state' row := by
  have hn : load.observing = true → pc' ≠ .detaching → False := fun ho hd => by
    rw [ho] at hl
    exact hl.elim (fun he => by cases he) hd
  constructor
  · exact fun he => absurd he hpc
  · exact h.cleared
  · rintro ho rfl
    exact (hn ho fun he => by cases he).elim
  · rintro rfl rfl
    exact (hn rfl fun he => by cases he).elim
  · rintro rfl rfl
    exact (hn rfl fun he => by cases he).elim

theorem Row.present (hl : load.observing = true) (h : load = .loaded → row = some state.code) :
    Row load .present state row where
  booting he := by cases he
  cleared he := absurd he (ne_cleared hl)
  gone _ he := by cases he
  attached he _ := h he
  changed _ he := by cases he

end

structure Inv (s : TabletState Id) : Prop where
  devices : ∀ d, d ∈ s.center.deviceList ↔ (s.pc d).listed = true
  nodup : s.center.deviceList.Nodup
  observed : .devTableMod ∈ s.center.observerList ↔ s.load.observing = true
  rows : ∀ d, Row s.load (s.pc d) (s.deviceState d) (s.connected d)

/-- A step that is about one device. -/
theorem Inv.about (h : s.Inv) (hl : s'.load = s.load) (ho : s'.center.observerList = s.center.observerList)
    (hn : s'.center.deviceList.Nodup) (hd : d ∈ s'.center.deviceList ↔ (s'.pc d).listed = true)
    (hrow : Row s.load (s'.pc d) (s'.deviceState d) (s'.connected d))
    (hx : ∀ x, x ≠ d → (x ∈ s'.center.deviceList ↔ x ∈ s.center.deviceList) ∧ s'.pc x = s.pc x ∧
      s'.deviceState x = s.deviceState x ∧ s'.connected x = s.connected x) : s'.Inv := by
  constructor
  · intro x
    by_cases hxd : x = d
    · rw [hxd]
      exact hd
    · obtain ⟨hm, hpc, -, -⟩ := hx x hxd
      rw [hm, hpc]
      exact h.devices x
  · exact hn
  · rw [ho, hl]
    exact h.observed
  · intro x
    rw [hl]
    by_cases hxd : x = d
    · rw [hxd]
      exact hrow
    · obtain ⟨-, hpc, hstate, hc⟩ := hx x hxd
      rw [hpc, hstate, hc]
      exact h.rows x

/-- A change of one device. -/
theorem Inv.change (h : s.Inv) {c : DeviceCenter Id CmdObserver} {pc : DevPc} {state : DevState}
    (hc : c.observerList = s.center.observerList) (hn : c.deviceList.Nodup) (hd : d ∈ c.deviceList ↔ pc.listed = true)
    (hx : ∀ x, x ≠ d → (x ∈ c.deviceList ↔ x ∈ s.center.deviceList))
    (hrow : Row s.load pc state (s.connected d)) : Inv { s with
      center := c, pc := Function.update s.pc d pc, deviceState := Function.update s.deviceState d state } := by
  refine h.about rfl hc hn (d := d) ?_ ?_ fun x hxd =>
    ⟨hx x hxd, Function.update_of_ne hxd .., Function.update_of_ne hxd .., rfl⟩
  · dsimp only
    rw [Function.update_self]
    exact hd
  · dsimp only
    rw [Function.update_self, Function.update_self]
    exact hrow

/-- A call of the observers about one device. -/
theorem Inv.notify (h : s.Inv) {pc : DevPc} {write : (Id → Option Nat) → Id → Option Nat}
    (hd : (s.pc d).listed = pc.listed) (hw : ∀ x, x ≠ d → write s.connected x = s.connected x)
    (hobs : s.load.observing = true → Row s.load pc (s.deviceState d) (write s.connected d))
    (hnot : s.load.observing = false → Row s.load pc (s.deviceState d) (s.connected d)) :
    (s.notify d pc write).Inv := by
  refine h.about (d := d) rfl rfl h.nodup ?_ ?_ fun x hxd => ⟨.rfl, Function.update_of_ne hxd .., rfl, ?_⟩
  · refine (h.devices d).trans ?_
    rw [hd, TabletState.notify]
    dsimp only
    rw [Function.update_self]
  · rw [TabletState.notify]
    dsimp only
    rw [Function.update_self]
    split
    · exact hobs (h.observed.1 ‹_›)
    · rename_i hm
      exact hnot (Bool.not_eq_true _ ▸ fun hl => hm (h.observed.2 hl))
  · rw [TabletState.notify]
    dsimp only
    split
    · exact hw x hxd
    · rfl

omit [DecidableEq Id] in
theorem Inv.registerObserver (h : s.Inv) (hl : s.load = .cleared) {c : DeviceCenter Id CmdObserver}
    (hc : s.center.registerObserver .devTableMod = some c) : Inv { s with load := .registered, center := c } := by
  obtain ⟨-, rfl⟩ := DeviceCenter.registerObserver_some hc
  refine ⟨h.devices, h.nodup, ?_, fun d => ?_⟩
  · exact iff_of_true (List.mem_append_right _ (List.mem_singleton_self _)) rfl
  · have hrow := h.rows d
    constructor
    · exact hrow.booting
    · exact fun he => by cases he
    · intro _ _ n hn
      rw [hrow.cleared hl] at hn
      cases hn
    · exact fun he => by cases he
    · exact fun he => by cases he

theorem Inv.replay (h : s.Inv) (hl : s.load = .registered) (hok : NoneBooted s .replay) : Inv { s with
    load := .loaded, connected := s.center.deviceList.foldl onAttached s.connected } := by
  refine ⟨h.devices, h.nodup, h.observed.trans (by rw [hl]; rfl), fun d => ?_⟩
  have hrow := h.rows d
  have hd := h.devices d
  show Row .loaded (s.pc d) (s.deviceState d) (s.center.deviceList.foldl onAttached s.connected d)
  rw [foldl_onAttached]
  constructor
  · exact hrow.booting
  · exact fun he => by cases he
  · intro _ hpc
    rw [hpc] at hd
    rw [if_neg fun hm => absurd (hd.1 hm) Bool.false_ne_true]
    exact hrow.gone (by rw [hl]; rfl) hpc
  · intro _ hpc
    rw [hpc] at hd
    have hb := (hok d (hd.2 rfl)).resolve_right fun he => by
      rw [hpc] at he
      cases he
    rw [if_pos (hd.2 rfl), hb]
    rfl
  · intro _ hpc
    rw [hpc] at hd
    exact ⟨1, if_pos (hd.2 rfl)⟩

theorem Inv.step (h : s.Inv) (hok : NoneBooted s a) (hs : step s a = some s') : s'.Inv := by
  cases a with
  | deleteTablets =>
    obtain ⟨hl, rfl⟩ := guard_some hs
    refine ⟨h.devices, h.nodup, h.observed.trans (by rw [hl]; rfl), fun d => ?_⟩
    constructor
    · exact (h.rows d).booting
    · exact fun _ => rfl
    · exact fun he => by cases he
    · exact fun he => by cases he
    · exact fun he => by cases he
  | registerObserver =>
    rw [TabletState.step] at hs
    split at hs
    · rename_i hl
      split at hs
      · rename_i hc
        -- it is not registered yet
        have hno : CmdObserver.devTableMod ∉ s.center.observerList := fun hm => by
          have := h.observed.1 hm
          rw [hl] at this
          cases this
        rw [DeviceCenter.registerObserver, if_neg hno] at hc
        cases hc
      · exact Option.some.inj hs ▸ h.registerObserver hl ‹_›
    · cases hs
  | replay =>
    obtain ⟨hl, rfl⟩ := guard_some hs
    exact h.replay hl hok
  | onDeviceAttached d =>
    rw [TabletState.step] at hs
    split at hs
    · split at hs
      · exact Option.some.inj hs ▸ h
      · obtain ⟨hd, rfl⟩ := DeviceCenter.onDeviceAttached_some ‹_›
        refine Option.some.inj hs ▸ h.change rfl ((List.concat_eq_append ..).subst (h.nodup.concat hd)) ?_ ?_ ?_
        · exact iff_of_true (List.mem_append_right _ (List.mem_singleton_self d)) rfl
        · exact fun x hx => List.mem_append.trans (or_iff_left fun hm => hx (List.mem_singleton.1 hm))
        · exact ⟨fun _ => rfl, (h.rows d).cleared, fun _ he => (by cases he), fun _ he => (by cases he),
            fun _ he => (by cases he)⟩
    · cases hs
  | onAttached d =>
    obtain ⟨hpc, rfl⟩ := guard_some hs
    have hrow := h.rows d
    refine h.notify (by rw [hpc]; rfl) (fun x hx => Function.update_of_ne hx ..) (fun hl => .present hl fun _ => ?_)
      fun hl => hrow.unsaid (fun he => by cases he) (.inl hl)
    rw [hrow.booting hpc]
    exact Function.update_self ..
  | updateState d charger =>
    obtain ⟨⟨hpc, -⟩, rfl⟩ := guard_some hs
    have hrow := h.rows d
    refine h.change rfl h.nodup ((h.devices d).trans (by rw [hpc]; rfl)) (fun _ _ => Iff.rfl) ?_
    exact ⟨fun he => (by cases he), hrow.cleared, fun _ he => (by cases he), fun _ he => (by cases he),
      fun hl _ => ⟨_, hrow.attached hl hpc⟩⟩
  | onStateChanged d =>
    obtain ⟨hpc, rfl⟩ := guard_some hs
    have hrow := h.rows d
    refine h.notify (by rw [hpc]; rfl) (fun x hx => Function.update_of_ne hx ..) (fun hl => .present hl fun hl => ?_)
      fun hl => hrow.unsaid (fun he => by cases he) (.inl hl)
    obtain ⟨n, hn⟩ := hrow.changed hl hpc
    rw [onStateChanged, setConnected, hn]
    exact Function.update_self ..
  | onDeviceDetached d =>
    rw [TabletState.step] at hs
    split at hs
    · rename_i hpc
      split at hs
      · exact Option.some.inj hs ▸ h
      · rename_i c hc
        obtain ⟨hd, he⟩ := DeviceCenter.onDeviceDetached_some hc
        have hi : Inv { s with
            center := c, pc := Function.update s.pc d .detaching
            deviceState := Function.update s.deviceState d (s.deviceState d) } := by
          subst he
          exact h.change rfl (h.nodup.erase d) (iff_of_false h.nodup.not_mem_erase Bool.false_ne_true)
            (fun x hx => List.mem_erase_of_ne hx) ((h.rows d).unsaid (fun he => by cases he) (.inr rfl))
        rw [Function.update_eq_self] at hi
        exact Option.some.inj hs ▸ hi
    · cases hs
  | onDetached d =>
    obtain ⟨hpc, rfl⟩ := guard_some hs
    have hrow := h.rows d
    refine h.notify (by rw [hpc]; rfl) (fun x hx => Function.update_of_ne hx ..) (fun hl => ?_)
      fun hl => hrow.unsaid (fun he => by cases he) (.inl hl)
    refine ⟨fun he => (by cases he), fun he => absurd he (ne_cleared hl), fun _ _ n hn => ?_, fun _ he => (by cases he),
      fun _ he => (by cases he)⟩
    rw [onDetached, setConnected, Function.update_self] at hn
    obtain ⟨m, -, he⟩ := Option.map_eq_some_iff.1 hn
    exact he.symm

omit [DecidableEq Id] in
theorem inv_start (connected : Id → Option Nat) : (start connected).Inv where
  devices _ := iff_of_false List.not_mem_nil Bool.false_ne_true
  nodup := .nil
  observed := iff_of_false List.not_mem_nil Bool.false_ne_true
  rows _ := ⟨fun he => (by cases he), fun he => (by cases he), fun he => (by cases he), fun he => (by cases he),
    fun he => (by cases he)⟩

/-- **Once loaded, the table tracks every device that no call is due about**, in the runs in which no device that has
booted is replayed. -/
theorem tablets_track (h : (machine Id).ReachWhen NoneBooted s) (hl : s.load = .loaded)
    (hd : s.pc d = .out ∨ s.pc d = .present) : s.Tracks d := by
  have hi : s.Inv := h.invariant (by rintro _ ⟨c, rfl⟩; exact inv_start c) fun _ _ _ hi hok hs => hi.step hok hs
  have hrow := hi.rows d
  have hm := hi.devices d
  rcases hd with hpc | hpc
  · rw [hpc] at hm
    exact ⟨fun hd => (by cases hm.1 hd), fun _ => hrow.gone (by rw [hl]; rfl) hpc⟩
  · rw [hpc] at hm
    exact ⟨fun _ => hrow.attached hl hpc, fun hd => absurd (hm.2 rfl) hd⟩

/-- A device that is replayed while it boots, and is announced when it has booted. -/
def bootsLater : List (TabletStep Unit) := [.deleteTablets, .onDeviceAttached (), .registerObserver, .replay,
  .onAttached (), .updateState () false, .onStateChanged ()]

theorem tablets_track_bootsLater : ∃ s, (machine Unit).runWhen NoneBooted (start fun _ => some 7) bootsLater = some s ∧
    s.connected () = some 3 ∧ s.Tracks () := by
  obtain ⟨s, hs, h⟩ := Option.map_eq_some_iff.1
    (show ((machine Unit).runWhen NoneBooted (start fun _ => some 7) bootsLater).map (fun s =>
      (s.load, s.pc (), s.connected ())) = some (.loaded, .present, some 3) by decide)
  obtain ⟨hl, h⟩ := Prod.mk.inj h
  obtain ⟨hpc, hc⟩ := Prod.mk.inj h
  exact ⟨s, hs, hc, tablets_track (Machine.ReachWhen.runWhen (.init ⟨_, rfl⟩) hs) hl (.inr hpc)⟩

/-- **The row that does not track**: a device that had booted before `Load` stays recorded as one that boots. -/
theorem tablets_untracked : ∃ s, (machine Unit).run (start fun _ => none) [.onDeviceAttached (), .onAttached (),
    .updateState () false, .onStateChanged (), .deleteTablets, .registerObserver, .replay] = some s ∧ s.load = .loaded ∧
    (∀ d, s.pc d = .present) ∧ s.deviceState () = .main ∧ s.connected () = some 1 ∧ ¬ s.Tracks () := by
  obtain ⟨s, hs, h⟩ := Option.map_eq_some_iff.1
    (show ((machine Unit).run (start fun _ => none) [.onDeviceAttached (), .onAttached (), .updateState () false,
      .onStateChanged (), .deleteTablets, .registerObserver, .replay]).map (fun s =>
      (s.load, s.pc (), s.deviceState (), s.connected (), s.center.deviceList)) =
      some (.loaded, .present, .main, some 1, [()]) by decide)
  obtain ⟨hl, h⟩ := Prod.mk.inj h
  obtain ⟨hpc, h⟩ := Prod.mk.inj h
  obtain ⟨hm, h⟩ := Prod.mk.inj h
  obtain ⟨hc, hd⟩ := Prod.mk.inj h
  refine ⟨s, hs, hl, fun _ => hpc, hm, hc, fun ht => ?_⟩
  have hrow := ht.attached (by rw [hd]; exact List.mem_singleton_self ())
  rw [hc, hm] at hrow
  cases hrow

end TabletState

end DevMgr
