import DevMgr.DeviceCenter
import Mathlib.Data.List.Count
import Mathlib.Tactic.Ring
/-!
# ObserverLife — what an observer hears of a device

The calls of `OnDeviceAttached`, `OnDeviceDetached`, `RegisterObserver` and `UnregisterObserver` by any threads: the
first critical section of a call puts its second one among those that are due.  The two take the locks in opposite
orders, so a device that comes while an observer registers is told of twice, and one that goes is told of without ever
having come.
-/
namespace DevMgr

open Machines

/-- A call of an observer about a device: that its `i`-th attachment began, or ended. -/
inductive Callback where
  | onAttached (i : Nat)
  | onDetached (i : Nat)
  deriving DecidableEq, Repr

/-- The observers' call for the `e`-th change of a device. -/
def callback (e : Nat) : Callback := if e % 2 = 0 then .onAttached (e / 2) else .onDetached (e / 2)

theorem callback_inj {e f : Nat} : callback e = callback f ↔ e = f := by
  constructor
  · intro h
    unfold callback at h
    split at h <;> split at h
    · have := Callback.onAttached.inj h
      omega
    · cases h
    · cases h
    · have := Callback.onDetached.inj h
      omega
  · exact fun h => congrArg callback h

theorem callback_attached (i : Nat) : callback (2 * i) = .onAttached i := by
  rw [callback, if_pos (by omega), Nat.mul_div_cancel_left i (by decide)]

theorem callback_detached (i : Nat) : callback (2 * i + 1) = .onDetached i := by
  rw [callback, if_neg (by omega)]
  congr 1
  omega

/-- A second critical section: the observers' calls for the `e`-th change of a device, or a registration's loop over
`_DeviceList`. -/
inductive Section (Dev Obs : Type) where
  | notify (pDevice : Dev) (e : Nat)
  | replay (pObserver : Obs)
  deriving DecidableEq, Repr

def Section.isNotify {Dev Obs : Type} : Section Dev Obs → Bool
  | .notify .. => true
  | .replay _ => false

/-- `due` are the second sections of the calls in progress, `changes d` is how often a device came or went, `since o d`
how often it had when the observer registered, and `heard o d` the calls of the observer since then. -/
structure CenterState (Dev Obs : Type) where
  center : DeviceCenter Dev Obs
  due : List (Section Dev Obs)
  changes : Dev → Nat
  since : Obs → Dev → Nat
  heard : Obs → Dev → List Callback

inductive CenterStep (Dev Obs : Type) where
  | onDeviceAttached (pDevice : Dev)
  | onDeviceDetached (pDevice : Dev)
  | notify (pDevice : Dev) (e : Nat)
  | registerObserver (pObserver : Obs)
  | replay (pObserver : Obs)
  | unregisterObserver (pObserver : Obs)
  deriving DecidableEq, Repr

namespace CenterState

variable {Dev Obs : Type} [DecidableEq Dev] [DecidableEq Obs]

/-- A change of `_DeviceList`, to be told to the observers. -/
def change (s : CenterState Dev Obs) (center : DeviceCenter Dev Obs) (pDevice : Dev) : CenterState Dev Obs :=
  { s with
    center := center
    due := s.due ++ [.notify pDevice (s.changes pDevice)]
    changes := Function.update s.changes pDevice (s.changes pDevice + 1) }

/-- The loop over `_ObserverList`. -/
def notify (s : CenterState Dev Obs) (pDevice : Dev) (e : Nat) : CenterState Dev Obs :=
  { s with
    due := s.due.erase (.notify pDevice e)
    heard := fun o => Function.update (s.heard o) pDevice
      (s.heard o pDevice ++ List.replicate (s.center.observerList.count o) (callback e)) }

/-- The loop over `_DeviceList`; the last change of a device in it is its coming. -/
def replay (s : CenterState Dev Obs) (pObserver : Obs) : CenterState Dev Obs :=
  { s with
    due := s.due.erase (.replay pObserver)
    heard := Function.update s.heard pObserver fun d =>
      s.heard pObserver d ++ List.replicate (s.center.deviceList.count d) (callback (s.changes d - 1)) }

def register (s : CenterState Dev Obs) (center : DeviceCenter Dev Obs) (pObserver : Obs) : CenterState Dev Obs :=
  { s with
    center := center
    due := s.due ++ [.replay pObserver]
    since := Function.update s.since pObserver s.changes
    heard := Function.update s.heard pObserver fun _ => [] }

def step (s : CenterState Dev Obs) : CenterStep Dev Obs → Option (CenterState Dev Obs)
  | .onDeviceAttached d => match s.center.onDeviceAttached d with
    | none => some s
    | some c => some (s.change c d)
  | .onDeviceDetached d => match s.center.onDeviceDetached d with
    | none => some s
    | some c => some (s.change c d)
  | .notify d e => if .notify d e ∈ s.due then some (s.notify d e) else none
  | .registerObserver o => match s.center.registerObserver o with
    | none => some s
    | some c => some (s.register c o)
  | .replay o => if .replay o ∈ s.due then some (s.replay o) else none
  | .unregisterObserver o => match s.center.unregisterObserver o with
    | none => some s
    | some c => some { s with center := c }

def start : CenterState Dev Obs :=
  { center := .empty, due := [], changes := fun _ => 0, since := fun _ _ => 0, heard := fun _ _ => [] }

def machine (Dev Obs : Type) [DecidableEq Dev] [DecidableEq Obs] :
    Machine (CenterState Dev Obs) (CenterStep Dev Obs) where
  init s := s = start
  step := step

variable {s s' : CenterState Dev Obs} {a : CenterStep Dev Obs} {d : Dev} {o : Obs} {e : Nat}

/-- **An observer hears of a device's life once**: every call at most once, of the end of an attachment only after its
beginning, of every attachment that had not ended when the observer registered unless its call or the replay is still
due, so in particular of the one of a device that is attached. -/
structure SeesLife (s : CenterState Dev Obs) (o : Obs) (d : Dev) : Prop where
  once : (s.heard o d).Nodup
  detached : ∀ i, .onDetached i ∈ s.heard o d → [.onAttached i, .onDetached i].Sublist (s.heard o d)
  attached : ∀ i, s.since o d ≤ 2 * i + 1 → 2 * i < s.changes d → .notify d (2 * i) ∉ s.due → .replay o ∉ s.due →
    .onAttached i ∈ s.heard o d
  missesNone : d ∈ s.center.deviceList → (∀ e, .notify d e ∉ s.due) → .replay o ∉ s.due →
    .onAttached (s.changes d / 2) ∈ s.heard o d

/-- **Calls that do not cross.**  No device comes or goes while the replay of a registered observer is due; no observer
registers while a call about a device, or another replay of its own, is due; and while there are observers they are not
told of the end of an attachment whose beginning is still to be told. -/
def Uncrossed (s : CenterState Dev Obs) : CenterStep Dev Obs → Prop
  | .onDeviceAttached d => d ∉ s.center.deviceList → ∀ o ∈ s.center.observerList, .replay o ∉ s.due
  | .onDeviceDetached d => d ∈ s.center.deviceList → ∀ o ∈ s.center.observerList, .replay o ∉ s.due
  | .notify d e => s.center.observerList = [] ∨ e % 2 = 0 ∨ .notify d (e - 1) ∉ s.due
  | .registerObserver o => o ∉ s.center.observerList → ∀ x ∈ s.due, x.isNotify = false ∧ x ≠ .replay o
  | _ => True

instance : ∀ (s : CenterState Dev Obs) (a : CenterStep Dev Obs), Decidable (Uncrossed s a) := by
  intro s a
  cases a <;> dsimp only [Uncrossed] <;> infer_instance

/-- What an observer that has had its replay has heard of a device: the calls of the attachments that had not ended when
it registered, but for those that are due. -/
structure Hears (s : CenterState Dev Obs) (o : Obs) (d : Dev) : Prop where
  since_le : s.since o d ≤ s.changes d
  since_due : ∀ e, .notify d e ∈ s.due → s.since o d ≤ e
  once : (s.heard o d).Nodup
  mem : ∀ e, callback e ∈ s.heard o d ↔ s.since o d ≤ 2 * (e / 2) + 1 ∧ e < s.changes d ∧ .notify d e ∉ s.due
  order : ∀ i, .onDetached i ∈ s.heard o d → [.onAttached i, .onDetached i].Sublist (s.heard o d)

/-- What holds of an observer whose replay is due. -/
structure Fresh (s : CenterState Dev Obs) (o : Obs) (d : Dev) : Prop where
  quiet : ∀ e, .notify d e ∉ s.due
  since : s.since o d = s.changes d
  heard : s.heard o d = []

structure Inv (s : CenterState Dev Obs) : Prop where
  devices : s.center.deviceList.Nodup
  observers : s.center.observerList.Nodup
  due : s.due.Nodup
  parity : ∀ d, d ∈ s.center.deviceList ↔ s.changes d % 2 = 1
  made : ∀ d e, .notify d e ∈ s.due → e < s.changes d
  fresh : ∀ o ∈ s.center.observerList, .replay o ∈ s.due → ∀ d, s.Fresh o d
  hears : ∀ o ∈ s.center.observerList, .replay o ∉ s.due → ∀ d, s.Hears o d

omit [DecidableEq Dev] [DecidableEq Obs] in
theorem Hears.seesLife (h : s.Hears o d) (hp : d ∈ s.center.deviceList → s.changes d % 2 = 1) : s.SeesLife o d := by
  have hatt : ∀ i, s.since o d ≤ 2 * i + 1 → 2 * i < s.changes d → .notify d (2 * i) ∉ s.due →
      .onAttached i ∈ s.heard o d := by
    intro i h1 h2 h3
    rw [← callback_attached]
    exact (h.mem _).2 ⟨by omega, h2, h3⟩
  constructor
  · exact h.once
  · exact h.order
  · exact fun i h1 h2 h3 _ => hatt i h1 h2 h3
  · intro hd hq _
    have hle := h.since_le
    have hodd := hp hd
    exact hatt _ (by omega) (by omega) (hq _)

omit [DecidableEq Dev] [DecidableEq Obs] in
theorem Fresh.seesLife (h : s.Fresh o d) (hr : .replay o ∈ s.due) : s.SeesLife o d := by
  constructor
  · rw [h.heard]
    exact .nil
  · intro i hi
    rw [h.heard] at hi
    cases hi
  · exact fun i _ _ _ hn => absurd hr hn
  · exact fun _ _ hn => absurd hr hn

omit [DecidableEq Dev] [DecidableEq Obs] in
/-- A step that leaves what an observer has heard of the device, and is still to hear. -/
theorem Hears.congr (h : s.Hears o d) (h1 : s'.since o d = s.since o d) (h2 : s'.changes d = s.changes d)
    (h3 : s'.heard o d = s.heard o d) (h4 : ∀ e, .notify d e ∈ s'.due ↔ .notify d e ∈ s.due) : s'.Hears o d := by
  constructor
  · rw [h1, h2]
    exact h.since_le
  · intro e he
    rw [h1]
    exact h.since_due e ((h4 e).1 he)
  · rw [h3]
    exact h.once
  · intro e
    rw [h1, h2, h3, h4 e]
    exact h.mem e
  · rw [h3]
    exact h.order

omit [DecidableEq Dev] [DecidableEq Obs] in
theorem Fresh.congr (h : s.Fresh o d) (h1 : s'.since o d = s.since o d) (h2 : s'.changes d = s.changes d)
    (h3 : s'.heard o d = s.heard o d) (h4 : ∀ e, .notify d e ∈ s'.due → .notify d e ∈ s.due) : s'.Fresh o d where
  quiet e he := h.quiet e (h4 e he)
  since := by rw [h1, h2, h.since]
  heard := by rw [h3, h.heard]

/-! ## A device comes or goes -/

omit [DecidableEq Obs] in
theorem changes_change_self (c : DeviceCenter Dev Obs) : (s.change c d).changes d = s.changes d + 1 :=
  Function.update_self ..

omit [DecidableEq Obs] in
theorem changes_change_of_ne (c : DeviceCenter Dev Obs) {x : Dev} (h : x ≠ d) :
    (s.change c d).changes x = s.changes x := Function.update_of_ne h ..

omit [DecidableEq Obs] in
theorem mem_change {c : DeviceCenter Dev Obs} {x : Section Dev Obs} :
    x ∈ (s.change c d).due ↔ x ∈ s.due ∨ x = .notify d (s.changes d) := by
  rw [change, List.mem_append, List.mem_singleton]

omit [DecidableEq Obs] in
theorem Hears.change {x : Dev} (h : s.Hears o x) {c : DeviceCenter Dev Obs} : (s.change c d).Hears o x := by
  by_cases hx : x = d
  · subst hx
    constructor
    · rw [changes_change_self]
      exact Nat.le_succ_of_le h.since_le
    · intro e he
      rcases mem_change.1 he with he | he
      · exact h.since_due e he
      · cases he
        exact h.since_le
    · exact h.once
    · intro e
      -- the change that is now made is due, and the earlier ones are as before
      refine (h.mem e).trans (and_congr_right fun _ => ?_)
      rw [changes_change_self, mem_change, Section.notify.injEq]
      constructor
      · rintro ⟨hlt, hn⟩
        refine ⟨Nat.lt_succ_of_lt hlt, ?_⟩
        rintro (he | ⟨-, rfl⟩)
        · exact hn he
        · exact lt_irrefl _ hlt
      · rintro ⟨hlt, hn⟩
        have hne : e ≠ s.changes x := fun he => hn (.inr ⟨rfl, he⟩)
        exact ⟨by omega, fun he => hn (.inl he)⟩
    · exact h.order
  · refine h.congr rfl (changes_change_of_ne c hx) rfl fun e => ?_
    rw [mem_change]
    refine or_iff_left fun he => hx ?_
    cases he
    rfl

omit [DecidableEq Obs] in
theorem Inv.change (h : s.Inv) {c : DeviceCenter Dev Obs} (hl : c.deviceList.Nodup)
    (ho : c.observerList = s.center.observerList) (hd : d ∈ c.deviceList ↔ d ∉ s.center.deviceList)
    (hx : ∀ x, x ≠ d → (x ∈ c.deviceList ↔ x ∈ s.center.deviceList))
    (hr : ∀ o ∈ s.center.observerList, .replay o ∉ s.due) : (s.change c d).Inv := by
  have hreplay : ∀ o, .replay o ∈ (s.change c d).due ↔ .replay o ∈ s.due := fun o => by
    rw [mem_change]
    exact or_iff_left fun he => by cases he
  constructor
  · exact hl
  · rw [CenterState.change, ho]
    exact h.observers
  · exact (List.concat_eq_append ..).subst (h.due.concat fun hm => lt_irrefl _ (h.made d _ hm))
  · intro x
    by_cases hxd : x = d
    · subst hxd
      have hp := h.parity x
      rw [changes_change_self]
      exact hd.trans (by rw [hp]; omega)
    · rw [changes_change_of_ne c hxd]
      exact (hx x hxd).trans (h.parity x)
  · intro x e he
    rcases mem_change.1 he with hm | hm
    · by_cases hxd : x = d
      · subst hxd
        rw [changes_change_self]
        exact Nat.lt_succ_of_lt (h.made x e hm)
      · rw [changes_change_of_ne c hxd]
        exact h.made x e hm
    · cases hm
      rw [changes_change_self]
      exact Nat.lt_succ_self _
  · intro o hm he
    rw [CenterState.change, ho] at hm
    exact absurd ((hreplay o).1 he) (hr o hm)
  · intro o hm he x
    rw [CenterState.change, ho] at hm
    exact (h.hears o hm (hr o hm) x).change

/-! ## The observers are told of a change -/

theorem Inv.mem_notify (h : s.Inv) {x : Section Dev Obs} :
    x ∈ (s.notify d e).due ↔ x ≠ .notify d e ∧ x ∈ s.due := h.due.mem_erase_iff

theorem Hears.notify {x : Dev} (h : s.Hears o x) (hi : s.Inv) (ho : o ∈ s.center.observerList)
    (hd : .notify d e ∈ s.due) (hok : e % 2 = 0 ∨ .notify d (e - 1) ∉ s.due) : (s.notify d e).Hears o x := by
  by_cases hx : x = d
  · subst hx
    have hheard : (s.notify x e).heard o x = s.heard o x ++ [callback e] := by
      refine (Function.update_self ..).trans ?_
      rw [List.count_eq_one_of_mem hi.observers ho]
      rfl
    have hnew : callback e ∉ s.heard o x := fun hm => ((h.mem e).1 hm).2.2 hd
    have hle := h.since_due e hd
    constructor
    · exact h.since_le
    · exact fun f hf => h.since_due f (hi.mem_notify.1 hf).2
    · rw [hheard]
      exact List.nodup_append.2 ⟨h.once, List.nodup_singleton _, fun a ha b hb => by
        rw [List.mem_singleton.1 hb]
        rintro rfl
        exact hnew ha⟩
    · intro f
      rw [hheard, List.mem_append, List.mem_singleton, callback_inj, hi.mem_notify, h.mem f]
      by_cases hf : f = e
      · subst hf
        exact iff_of_true (.inr rfl) ⟨by show s.since o x ≤ _; omega, hi.made x f hd, fun hn => hn.1 rfl⟩
      · rw [or_iff_left hf]
        refine and_congr_right fun _ => and_congr_right fun _ => not_congr ?_
        exact (and_iff_right fun he => hf (Section.notify.inj he).2).symm
    · intro i hm
      rw [hheard] at hm ⊢
      rcases List.mem_append.1 hm with hm | hm
      · exact (h.order i hm).trans (List.sublist_append_left ..)
      · have he : e = 2 * i + 1 := callback_inj.1 (by rw [callback_detached, List.mem_singleton.1 hm])
        subst he
        have hatt : .onAttached i ∈ s.heard o x := by
          have hlt := hi.made x _ hd
          rw [← callback_attached]
          refine (h.mem _).2 ⟨by omega, by omega, hok.resolve_left (by omega)⟩
        rw [callback_detached]
        exact (List.singleton_sublist.2 hatt).append (List.Sublist.refl [Callback.onDetached i])
  · refine h.congr rfl rfl (Function.update_of_ne hx ..) fun f => ?_
    rw [hi.mem_notify]
    exact and_iff_right fun he => hx (Section.notify.inj he).1

theorem Inv.notify (h : s.Inv) (hd : .notify d e ∈ s.due)
    (hok : s.center.observerList = [] ∨ e % 2 = 0 ∨ .notify d (e - 1) ∉ s.due) : (s.notify d e).Inv := by
  have hreplay : ∀ o, .replay o ∈ (s.notify d e).due ↔ .replay o ∈ s.due := fun o => by
    rw [h.mem_notify]
    exact and_iff_right fun he => by cases he
  constructor
  · exact h.devices
  · exact h.observers
  · exact h.due.erase _
  · exact h.parity
  · exact fun x f hf => h.made x f (h.mem_notify.1 hf).2
  · intro o ho hr
    exact absurd hd ((h.fresh o ho ((hreplay o).1 hr) d).quiet e)
  · intro o ho hr x
    exact (h.hears o ho (fun hm => hr ((hreplay o).2 hm)) x).notify h ho hd
      (hok.resolve_left (List.ne_nil_of_mem ho))

/-! ## An observer registers, and hears of the devices there are -/

omit [DecidableEq Dev] in
theorem mem_register {c : DeviceCenter Dev Obs} {x : Section Dev Obs} :
    x ∈ (s.register c o).due ↔ x ∈ s.due ∨ x = .replay o := by
  rw [register, List.mem_append, List.mem_singleton]

omit [DecidableEq Dev] in
theorem Inv.register (h : s.Inv) {c : DeviceCenter Dev Obs} (hc : s.center.registerObserver o = some c)
    (hok : ∀ x ∈ s.due, x.isNotify = false ∧ x ≠ .replay o) : (s.register c o).Inv := by
  obtain ⟨ho, hc⟩ := DeviceCenter.registerObserver_some hc
  have hmem : ∀ o' ∈ c.observerList, o' ≠ o → o' ∈ s.center.observerList := fun o' hm hne => by
    rw [hc] at hm
    exact (List.mem_append.1 hm).resolve_right fun he => hne (List.mem_singleton.1 he)
  have hquiet : ∀ d e, .notify d e ∉ s.due := fun d e hd => by cases (hok _ hd).1
  have hnotify : ∀ d e, .notify d e ∈ (s.register c o).due ↔ .notify d e ∈ s.due := fun d e => by
    rw [mem_register]
    exact or_iff_left fun he => by cases he
  have hother : ∀ o', o' ≠ o → (.replay o' ∈ (s.register c o).due ↔ .replay o' ∈ s.due) := fun o' hne => by
    rw [mem_register]
    exact or_iff_left fun he => hne (Section.replay.inj he)
  constructor
  · rw [CenterState.register, hc]
    exact h.devices
  · rw [CenterState.register, hc]
    exact (List.concat_eq_append ..).subst (h.observers.concat ho)
  · exact (List.concat_eq_append ..).subst (h.due.concat fun hm => (hok _ hm).2 rfl)
  · rw [CenterState.register, hc]
    exact h.parity
  · exact fun d e he => h.made d e ((hnotify d e).1 he)
  · intro o' hm hr d
    by_cases hne : o' = o
    · subst hne
      constructor
      · exact fun e he => hquiet d e ((hnotify d e).1 he)
      · exact congrFun (Function.update_self o' s.changes s.since) d
      · exact congrFun (Function.update_self o' (fun _ => []) s.heard) d
    · exact (h.fresh o' (hmem o' hm hne) ((hother o' hne).1 hr) d).congr (congrFun (Function.update_of_ne hne ..) d) rfl
        (congrFun (Function.update_of_ne hne ..) d) fun e => (hnotify d e).1
  · intro o' hm hr d
    have hne : o' ≠ o := fun he => hr (mem_register.2 (.inr (congrArg _ he)))
    exact (h.hears o' (hmem o' hm hne) (fun he => hr ((hother o' hne).2 he)) d).congr
      (congrFun (Function.update_of_ne hne ..) d) rfl (congrFun (Function.update_of_ne hne ..) d) fun e => hnotify d e

theorem Inv.mem_replay (h : s.Inv) {x : Section Dev Obs} :
    x ∈ (s.replay o).due ↔ x ≠ .replay o ∧ x ∈ s.due := h.due.mem_erase_iff

theorem Fresh.replay (h : s.Fresh o d) (hi : s.Inv) : (s.replay o).Hears o d := by
  have hheard : (s.replay o).heard o d = List.replicate (s.center.deviceList.count d) (callback (s.changes d - 1)) := by
    refine (congrFun (Function.update_self ..) d).trans ?_
    rw [h.heard, List.nil_append]
  have hsince : (s.replay o).since o d = s.changes d := h.since
  have hquiet : ∀ e, .notify d e ∉ (s.replay o).due := fun e he => h.quiet e (hi.mem_replay.1 he).2
  have hp : List.count d s.center.deviceList ≠ 0 ↔ s.changes d % 2 = 1 :=
    List.count_eq_zero.not_left.trans (hi.parity d)
  constructor
  · exact hsince.le
  · exact fun e he => absurd he (hquiet e)
  · rw [hheard]
    exact List.nodup_replicate.2 (List.nodup_iff_count_le_one.1 hi.devices d)
  · intro e
    rw [hheard, List.mem_replicate, callback_inj, hsince, hp]
    refine Iff.trans ?_ (and_congr_right fun _ => (and_iff_left (hquiet e)).symm)
    show _ ↔ s.changes d ≤ _ ∧ e < s.changes d
    omega
  · intro i hm
    rw [hheard, List.mem_replicate, ← callback_detached, callback_inj, hp] at hm
    omega

theorem Inv.replay (h : s.Inv) (hr : .replay o ∈ s.due) : (s.replay o).Inv := by
  have hnotify : ∀ d e, .notify d e ∈ (s.replay o).due ↔ .notify d e ∈ s.due := fun d e => by
    rw [h.mem_replay]
    exact and_iff_right fun he => by cases he
  constructor
  · exact h.devices
  · exact h.observers
  · exact h.due.erase _
  · exact h.parity
  · exact fun d e he => h.made d e ((hnotify d e).1 he)
  · intro o' ho hr' d
    obtain ⟨hne, hr'⟩ := h.mem_replay.1 hr'
    have hne : o' ≠ o := fun he => hne (congrArg _ he)
    exact (h.fresh o' ho hr' d).congr rfl rfl (congrFun (Function.update_of_ne hne ..) d) fun e => (hnotify d e).1
  · intro o' ho hr' d
    by_cases hne : o' = o
    · subst hne
      exact (h.fresh o' ho hr d).replay h
    · have hn : .replay o' ∉ s.due := fun he =>
        hr' (h.mem_replay.2 ⟨fun he => hne (Section.replay.inj he), he⟩)
      exact (h.hears o' ho hn d).congr rfl rfl (congrFun (Function.update_of_ne hne ..) d) fun e => hnotify d e

omit [DecidableEq Dev] in
theorem Inv.unregister (h : s.Inv) {c : DeviceCenter Dev Obs} (hc : s.center.unregisterObserver o = some c) :
    Inv { s with center := c } := by
  obtain ⟨-, rfl⟩ := DeviceCenter.unregisterObserver_some hc
  exact ⟨h.devices, h.observers.erase o, h.due, h.parity, h.made,
    fun o' ho hr d => (h.fresh o' (List.mem_of_mem_erase ho) hr d).congr rfl rfl rfl fun _ => id,
    fun o' ho hr d => (h.hears o' (List.mem_of_mem_erase ho) hr d).congr rfl rfl rfl fun _ => Iff.rfl⟩

theorem Inv.step (h : s.Inv) (hok : Uncrossed s a) (hs : step s a = some s') : s'.Inv := by
  cases a with
  | onDeviceAttached d =>
    rw [CenterState.step] at hs
    split at hs
    · exact Option.some.inj hs ▸ h
    · obtain ⟨hd, rfl⟩ := DeviceCenter.onDeviceAttached_some ‹_›
      refine Option.some.inj hs ▸ h.change ?_ rfl ?_ ?_ (hok hd)
      · exact (List.concat_eq_append ..).subst (h.devices.concat hd)
      · exact iff_of_true (List.mem_append_right _ (List.mem_singleton_self d)) hd
      · intro x hx
        exact List.mem_append.trans (or_iff_left fun hm => hx (List.mem_singleton.1 hm))
  | onDeviceDetached d =>
    rw [CenterState.step] at hs
    split at hs
    · exact Option.some.inj hs ▸ h
    · obtain ⟨hd, rfl⟩ := DeviceCenter.onDeviceDetached_some ‹_›
      refine Option.some.inj hs ▸ h.change (h.devices.erase d) rfl ?_ ?_ (hok hd)
      · exact iff_of_false h.devices.not_mem_erase fun hn => hn hd
      · exact fun x hx => List.mem_erase_of_ne hx
  | notify d e =>
    obtain ⟨hd, rfl⟩ := guard_some hs
    exact h.notify hd hok
  | registerObserver o =>
    rw [CenterState.step] at hs
    split at hs
    · exact Option.some.inj hs ▸ h
    · exact Option.some.inj hs ▸ h.register ‹_› (hok (DeviceCenter.registerObserver_some ‹_›).1)
  | replay o =>
    obtain ⟨hr, rfl⟩ := guard_some hs
    exact h.replay hr
  | unregisterObserver o =>
    rw [CenterState.step] at hs
    split at hs
    · exact Option.some.inj hs ▸ h
    · exact Option.some.inj hs ▸ h.unregister ‹_›

omit [DecidableEq Dev] [DecidableEq Obs] in
theorem inv_start : (start : CenterState Dev Obs).Inv where
  devices := .nil
  observers := .nil
  due := .nil
  parity _ := iff_of_false List.not_mem_nil Nat.zero_ne_one
  made _ _ h := absurd h List.not_mem_nil
  fresh _ h := absurd h List.not_mem_nil
  hears _ h := absurd h List.not_mem_nil

/-- **Every registered observer hears of every device's life once**, in the runs whose calls do not cross. -/
theorem observers_see_life (h : (machine Dev Obs).ReachWhen Uncrossed s) (ho : o ∈ s.center.observerList) (d : Dev) :
    s.SeesLife o d := by
  have hi : s.Inv := h.invariant (by rintro _ rfl; exact inv_start) fun _ _ _ hi hok hs => hi.step hok hs
  by_cases hr : .replay o ∈ s.due
  · exact (hi.fresh o ho hr d).seesLife hr
  · exact (hi.hears o ho hr d).seesLife (hi.parity d).1

/-- A device that comes, of which an observer then hears on registering, and goes. -/
def comesAndGoes : List (CenterStep Unit Unit) := [.onDeviceAttached (), .notify () 0, .registerObserver (), .replay (),
  .onDeviceDetached (), .notify () 1]

theorem observers_see_life_comesAndGoes : ∃ s, (machine Unit Unit).runWhen Uncrossed start comesAndGoes = some s ∧
    s.heard () () = [.onAttached 0, .onDetached 0] ∧ s.SeesLife () () := by
  obtain ⟨s, hs, h⟩ := Option.map_eq_some_iff.1
    (show ((machine Unit Unit).runWhen Uncrossed start comesAndGoes).map (fun s =>
      (s.center.observerList, s.heard () ())) = some ([()], [.onAttached 0, .onDetached 0]) by decide)
  obtain ⟨ho, hh⟩ := Prod.mk.inj h
  refine ⟨s, hs, hh, observers_see_life (Machine.ReachWhen.runWhen (.init rfl) hs) ?_ ()⟩
  rw [ho]
  exact List.mem_singleton_self ()

/-- **The calls that cross**: of a device that comes while the observer registers it hears twice, and of one that goes
then it hears the end alone. -/
theorem observers_told_wrong :
    (∃ s, (machine Unit Unit).run start [.onDeviceAttached (), .registerObserver (), .notify () 0, .replay ()] =
      some s ∧ s.center.observerList = [()] ∧ s.heard () () = [.onAttached 0, .onAttached 0] ∧ ¬ s.SeesLife () ()) ∧
    ∃ s, (machine Unit Unit).run start [.onDeviceAttached (), .notify () 0, .onDeviceDetached (), .registerObserver (),
      .notify () 1, .replay ()] = some s ∧ s.center.observerList = [()] ∧ s.heard () () = [.onDetached 0] ∧
      ¬ s.SeesLife () () := by
  constructor
  · obtain ⟨s, hs, h⟩ := Option.map_eq_some_iff.1
      (show ((machine Unit Unit).run start [.onDeviceAttached (), .registerObserver (), .notify () 0,
        .replay ()]).map (fun s => (s.center.observerList, s.heard () ())) =
        some ([()], [.onAttached 0, .onAttached 0]) by decide)
    obtain ⟨ho, hh⟩ := Prod.mk.inj h
    refine ⟨s, hs, ho, hh, fun hl => absurd hl.once ?_⟩
    rw [hh]
    decide
  · obtain ⟨s, hs, h⟩ := Option.map_eq_some_iff.1
      (show ((machine Unit Unit).run start [.onDeviceAttached (), .notify () 0, .onDeviceDetached (),
        .registerObserver (), .notify () 1, .replay ()]).map (fun s => (s.center.observerList, s.heard () ())) =
        some ([()], [.onDetached 0]) by decide)
    obtain ⟨ho, hh⟩ := Prod.mk.inj h
    refine ⟨s, hs, ho, hh, fun hl => ?_⟩
    have hsub := hl.detached 0
    rw [hh] at hsub
    exact absurd (hsub (List.mem_singleton_self _)) (by decide)

end CenterState

end DevMgr
