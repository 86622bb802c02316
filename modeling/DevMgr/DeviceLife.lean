import DevMgr.AdbDeviceMon
import DevMgr.AdbServe
/-!
# DeviceLife — a device outlives its uses

The references held outside the command queues are the monitor's, `DeviceCenter`'s and those of callers of `GetDevice`.
`OnDeviceAttached` puts a device in the list before it takes its reference, and `OnDeviceDetached` takes it from the
list before it gives its reference back, so between the two the count and the lists differ by one (`unreferenced`,
`unreleased`); the monitor's own reference covers both.
-/
namespace DevMgr

open Machines

namespace AdbState

variable {Dev : Type} [DecidableEq Dev] {s s' : AdbState Dev} {d d₀ : Dev} {q : Queue} {w : Thread} {a : AdbStep Dev}

/-- What `takeCmd` leaves alone. -/
theorem takeCmd_frame : (s.takeCmd w d q).holders = s.holders ∧ (s.takeCmd w d q).created = s.created ∧
    (s.takeCmd w d q).lRefCnt = s.lRefCnt := by
  unfold takeCmd
  split <;> exact ⟨rfl, rfl, rfl⟩

/-- **What a step does to the count of a device**: it releases the device, or leaves the count positive or zero, or
makes the device. -/
inductive Counts (s s' : AdbState Dev) (released : Option Dev) (d : Dev) : Prop
  | released (hr : released = some d) (h0 : 0 < s.lRefCnt d) (h1 : s'.lRefCnt d = s.lRefCnt d - 1)
      (hc : s'.created d = s.created d)
  | same (hr : released ≠ some d) (h0 : s'.lRefCnt d = 0 ↔ s.lRefCnt d = 0) (hc : s'.created d = s.created d)
  | made (hr : released ≠ some d) (h0 : s.created d = false) (h1 : 0 < s'.lRefCnt d)

omit [DecidableEq Dev] in
theorem Counts.keep (hr : s.released a = none) (h : s'.lRefCnt = s.lRefCnt) (hc : s'.created = s.created) :
    Counts s s' (s.released a) d :=
  .same (by rw [hr]; exact fun he => by cases he) (by rw [h]) (by rw [hc])

theorem counts_addRef (hp : 0 < s.lRefCnt d₀) (h : s'.lRefCnt = Function.update s.lRefCnt d₀ (s.lRefCnt d₀ + 1))
    (hc : s'.created = s.created) (hr : s.released a = none) : Counts s s' (s.released a) d := by
  refine .same (by rw [hr]; exact fun he => by cases he) ?_ (by rw [hc])
  rw [h]
  by_cases hd : d = d₀
  · subst hd
    rw [Function.update_self]
    omega
  · rw [Function.update_of_ne hd]

theorem counts_release (hp : 0 < s.lRefCnt d₀) (h : s'.lRefCnt = Function.update s.lRefCnt d₀ (s.lRefCnt d₀ - 1))
    (hc : s'.created = s.created) (hr : s.released a = some d₀) : Counts s s' (s.released a) d := by
  by_cases hd : d = d₀
  · subst hd
    exact .released hr hp (by rw [h, Function.update_self]) (by rw [hc])
  · refine .same (by rw [hr]; exact fun he => hd (Option.some.inj he).symm) ?_ (by rw [hc])
    rw [h, Function.update_of_ne hd]

theorem counts_step (hi : ∀ d, Refs s d) (hs : AdbState.step false s a = some s') : Counts s s' (s.released a) d := by
  cases act_some hs with
  | @newDevice d₀ hg =>
    by_cases hd : d = d₀
    · subst hd
      exact .made (fun he => by cases he) hg (Nat.one_pos.trans_eq (Function.update_self d 1 s.lRefCnt).symm)
    · refine .same (fun he => by cases he) ?_ (Function.update_of_ne hd ..)
      show Function.update s.lRefCnt d₀ 1 d = 0 ↔ _
      rw [Function.update_of_ne hd]
  | @addRef d₀ hg => exact counts_addRef (by have := (hi d₀).sum; omega) rfl rfl rfl
  | @release d₀ hg _ => exact counts_release (by have := (hi d₀).sum; omega) rfl rfl rfl
  | @request d₀ q hc =>
    have hh := (hi d₀).call q (by rw [hc]; exact fun he => by cases he)
    unfold AdbState.request
    split
    · exact .keep rfl rfl rfl
    · exact counts_addRef (by have := (hi d₀).sum; omega) rfl rfl rfl
  | begin _ _ | next _ _ => exact .keep rfl takeCmd_frame.2.2 takeCmd_frame.2.1
  | @releaseDev w d₀ hw =>
    have h1 : (s.worker w).on d₀ ≤ s.workRefs d₀ :=
      Finset.single_le_sum (f := fun w => (s.worker w).on d₀) (fun _ _ => Nat.zero_le _) (Finset.mem_univ w)
    rw [hw, WorkPc.on, if_pos rfl] at h1
    refine counts_release (by have := (hi d₀).sum; omega) rfl rfl ?_
    rw [released, hw]
  | _ => exact .keep rfl rfl rfl

theorem request_frame : (s.request d q).holders = s.holders ∧ (s.request d q).created = s.created := by
  unfold AdbState.request
  split <;> exact ⟨rfl, rfl⟩

/-- The command queues leave the references outside alone. -/
theorem inQueues_frame (ha : a.inQueues = true) (hs : AdbState.step false s a = some s') :
    s'.holders = s.holders ∧ s'.created = s.created := by
  cases act_some hs with
  | newDevice _ | addRef _ | release _ _ => cases ha
  | request _ => exact request_frame
  | begin _ _ | next _ _ => exact ⟨takeCmd_frame.1, takeCmd_frame.2.1⟩
  | _ => exact ⟨rfl, rfl⟩

end AdbState

section
variable {α : Type} [DecidableEq α] {f : α → Nat} {d x : α}

theorem count_cons_one (l : List α) : (d :: l).count x = [d].count x + l.count x := by
  rw [← List.singleton_append, List.count_append]

theorem update_add_one : Function.update f d (f d + 1) x = f x + [d].count x := by
  by_cases hx : x = d
  · rw [hx, Function.update_self, List.count_singleton_self]
  · rw [Function.update_of_ne hx, List.count_singleton, beq_false_of_ne (Ne.symm hx)]
    rfl

theorem update_sub_one (h : 0 < f d) : Function.update f d (f d - 1) x + [d].count x = f x := by
  by_cases hx : x = d
  · rw [hx, Function.update_self, List.count_singleton_self]
    omega
  · rw [Function.update_of_ne hx, List.count_singleton, beq_false_of_ne (Ne.symm hx)]
    rfl

end

/-- The device of an `OnDeviceAttached` that has not taken its reference. -/
def AdbMonPc.unreferenced {Id : Type} : AdbMonPc Id → List (SmartDev Id)
  | .addRef d _ _ => [d]
  | _ => []

/-- The device of an `OnDeviceDetached` that has not given its reference back. -/
def AdbMonPc.unreleased {Id : Type} : AdbMonPc Id → List (SmartDev Id)
  | .release d _ => [d]
  | _ => []

namespace AdbMonState

open AdbState

variable {Id : Type} [DecidableEq Id] {s s' : AdbMonState Id} {a : AdbMonStep Id} {d : SmartDev Id}

/-- The device is in one of the lists, or a thread has it. -/
def InUse (s : AdbMonState Id) (d : SmartDev Id) : Prop :=
  d ∈ s.deviceList ∨ d ∈ s.pc.held ∨ d ∈ s.center.deviceList ∨ (∃ q, d ∈ s.adb.execList q) ∨
    (∃ w, (s.adb.worker w).on d ≠ 0) ∨ 0 < s.got d

/-- **A device outlives its uses**: its count is 0 exactly when it is in no list and no thread has it; then its
destructor has run, once, and its queues are empty, so that nothing is left to flush. -/
structure Outlives (s : AdbMonState Id) (d : SmartDev Id) : Prop where
  dead : s.adb.lRefCnt d = 0 ↔ ¬ s.InUse d
  once : s.deaths d = if s.adb.lRefCnt d = 0 then 1 else 0
  empty : s.adb.lRefCnt d = 0 → ∀ q, s.adb.cmdList d q = [] ∧ s.adb.step false (.flush d q) = none

/-- The references held outside the queues. -/
def Held (s : AdbMonState Id) (d : SmartDev Id) : Prop :=
  s.adb.holders d + s.pc.unreferenced.count d = (s.deviceList ++ s.pc.held).count d + s.center.deviceList.count d +
    s.pc.unreleased.count d + s.got d

structure Life (s : AdbMonState Id) : Prop where
  lists : s.Lists
  adb : ExecInv s.adb
  known : ∀ d, s.adb.created d = true → d.pDevice < s.created
  held : ∀ d, s.Held d
  deaths : ∀ d, s.deaths d = if s.adb.created d = true ∧ s.adb.lRefCnt d = 0 then 1 else 0

theorem Life.uncreated (h : s.Life) (szId : Id) : s.adb.created ⟨s.created, szId⟩ = false := by
  rw [← Bool.not_eq_true]
  exact fun hc => lt_irrefl _ (h.known _ hc)

/-- What `DeviceCenter` is told of, and what is between a list and a reference, the monitor has. -/
theorem count_pc (pc : AdbMonPc Id) (d : SmartDev Id) : pc.unreferenced.count d ≤ pc.listed.count d ∧
    pc.listed.count d ≤ pc.held.count d ∧ pc.unreleased.count d ≤ pc.held.count d := by
  have hhead : ∀ (d' : SmartDev Id) l, [d'].count d ≤ (d' :: l).count d := fun d' l =>
    (List.singleton_sublist.2 List.mem_cons_self).count_le d
  cases pc with
  | idle => exact ⟨Nat.le_refl _, Nat.le_refl _, Nat.le_refl _⟩
  | scanning l todo => exact ⟨Nat.zero_le _, Nat.le_refl _, Nat.zero_le _⟩
  | addRef d' l todo => exact ⟨hhead d' l, Nat.le_refl _, Nat.zero_le _⟩
  | onAttached d' l todo => exact ⟨Nat.zero_le _, Nat.le_refl _, Nat.zero_le _⟩
  | release d' l => exact ⟨Nat.zero_le _, List.count_le_count_cons, hhead d' l⟩
  | onDetached d' l => exact ⟨Nat.zero_le _, List.count_le_count_cons, Nat.zero_le _⟩
  | dropping d' l => exact ⟨Nat.zero_le _, List.count_le_count_cons, Nat.zero_le _⟩

/-- The references besides the monitor's own. -/
theorem Held.le (h : s.Held d) : s.deviceList.count d + s.center.deviceList.count d + s.pc.unreleased.count d +
    s.got d ≤ s.adb.holders d := by
  have := count_pc s.pc d
  rw [Held, List.count_append] at h
  omega

/-- **The monitor's reference**: whoever takes or gives back a reference does so under another. -/
theorem Life.adbStep (h : s.Life) (ha : Acts s a s') : (s'.adb = s.adb ∧ s.released a = none) ∨
    ∃ b, s.adb.step false b = some s'.adb ∧ s.adb.released b = s.released a := by
  cases ha with
  | processDevices szDevId hpc => exact .inl ⟨rfl, rfl⟩
  | @scanNew newList szId todo hpc hf =>
    refine .inr ⟨.newDevice ⟨s.created, szId⟩, ?_, rfl⟩
    rw [h.lists.attach_eq hpc]
    exact if_pos (h.uncreated szId)
  | scanKnown hpc hf => exact .inl ⟨rfl, rfl⟩
  | @addRef d newList todo hpc =>
    refine .inr ⟨.addRef d, if_pos ?_, rfl⟩
    have hm : d ∈ s.center.deviceList := h.lists.center.mem_iff.2 (by
      rw [hpc]
      exact List.mem_append_right _ List.mem_cons_self)
    have := (h.held d).le
    have := List.count_pos_iff.2 hm
    omega
  | onAttached hpc => exact .inl ⟨rfl, rfl⟩
  | popFront hpc =>
    rw [(h.lists.detach_eq hpc).2]
    exact .inl ⟨rfl, rfl⟩
  | finish hpc => exact .inl ⟨rfl, rfl⟩
  | @centerRelease d newList hpc =>
    have hh := h.held d
    rw [Held, hpc, List.count_append] at hh
    simp only [AdbMonPc.unreferenced, AdbMonPc.unreleased, AdbMonPc.held, List.count_nil, List.count_cons_self] at hh
    refine .inr ⟨.release d, if_pos ⟨by omega, .inl (by omega)⟩, ?_⟩
    rw [AdbMonState.released, hpc]
    rfl
  | onDetached hpc => exact .inl ⟨rfl, rfl⟩
  | @drop d newList hpc hd =>
    have hh := h.held d
    rw [Held, hpc, List.count_append] at hh
    simp only [AdbMonPc.unreferenced, AdbMonPc.held, List.count_nil, List.count_cons_self] at hh
    refine .inr ⟨.release d, if_pos ⟨by omega, hd⟩, ?_⟩
    rw [AdbMonState.released, hpc]
    rfl
  | notFound szId hf => exact .inl ⟨rfl, rfl⟩
  | @getDevice szId d hf =>
    refine .inr ⟨.addRef d, if_pos ?_, rfl⟩
    have := (h.held d).le
    have := List.count_pos_iff.2 (List.mem_of_find?_eq_some hf)
    omega
  | @release d hg hd =>
    have := (h.held d).le
    exact .inr ⟨.release d, if_pos ⟨by omega, hd⟩, rfl⟩
  | adb ha ht => exact .inr ⟨_, ht, rfl⟩

/-- A step that keeps the references, or takes or gives them back with what holds them. -/
theorem Life.held_act (h : s.Life) (ha : Acts s a s') (x : SmartDev Id) : s'.Held x := by
  have hx := h.held x
  unfold Held at hx ⊢
  cases ha with
  | processDevices szDevId hpc =>
    rw [hpc, AdbMonPc.held, List.append_nil] at hx
    exact hx
  | @scanNew newList szId todo hpc hf =>
    have h0 := (h.adb.refs ⟨s.created, szId⟩).sum
    rw [(h.adb.refs ⟨s.created, szId⟩).fresh (h.uncreated szId)] at h0
    have hnew : Function.update s.adb.holders ⟨s.created, szId⟩ 1 x =
        s.adb.holders x + [(⟨s.created, szId⟩ : SmartDev Id)].count x := by
      rw [← update_add_one, show s.adb.holders ⟨s.created, szId⟩ = 0 by omega]
    rw [hpc] at hx
    simp only [AdbMonPc.unreferenced, AdbMonPc.unreleased, AdbMonPc.held, List.count_append, List.count_nil] at hx
    rw [h.lists.attach_eq hpc]
    simp only [AdbMonPc.unreferenced, AdbMonPc.unreleased, AdbMonPc.held, construct, List.count_append, List.count_nil,
      hnew]
    rw [count_cons_one newList]
    omega
  | scanKnown hpc hf =>
    rw [hpc] at hx
    simp only [AdbMonPc.unreferenced, AdbMonPc.unreleased, AdbMonPc.held, List.count_append,
      (Matching.takeFirst_perm hf).count_eq] at hx ⊢
    rw [count_cons_one] at hx
    omega
  | addRef hpc =>
    rw [hpc] at hx
    simp only [AdbMonPc.unreferenced, AdbMonPc.unreleased, AdbMonPc.held, hold, update_add_one, List.count_nil] at hx ⊢
    omega
  | onAttached hpc =>
    rw [hpc] at hx
    simp only [AdbMonPc.unreferenced, AdbMonPc.unreleased, AdbMonPc.held, List.count_append] at hx ⊢
    rw [count_cons_one] at hx
    omega
  | popFront hpc =>
    obtain ⟨hm, he⟩ := h.lists.detach_eq hpc
    have hp := (List.perm_cons_erase hm).count_eq x
    rw [count_cons_one] at hp
    rw [hpc] at hx
    rw [he]
    simp only [AdbMonPc.unreferenced, AdbMonPc.unreleased, AdbMonPc.held, List.count_nil] at hx ⊢
    omega
  | finish hpc =>
    rw [hpc] at hx
    exact hx
  | @centerRelease d newList hpc =>
    have hd := (h.held d).le
    rw [hpc, AdbMonPc.unreleased, List.count_singleton_self] at hd
    have hu := update_sub_one (x := x) (show 0 < s.adb.holders d by omega)
    rw [hpc] at hx
    simp only [AdbMonPc.unreferenced, AdbMonPc.unreleased, AdbMonPc.held, unhold, List.count_nil] at hx ⊢
    omega
  | onDetached hpc =>
    rw [hpc] at hx
    exact hx
  | @drop d newList hpc hd =>
    have hh := h.held d
    rw [Held, hpc, List.count_append] at hh
    simp only [AdbMonPc.unreferenced, AdbMonPc.held, List.count_nil, List.count_cons_self] at hh
    have hu := update_sub_one (x := x) (show 0 < s.adb.holders d by omega)
    rw [hpc] at hx
    simp only [AdbMonPc.unreferenced, AdbMonPc.unreleased, AdbMonPc.held, unhold, List.count_append] at hx ⊢
    rw [count_cons_one] at hx
    omega
  | notFound szId hf => exact hx
  | getDevice szId hf =>
    simp only [hold, update_add_one]
    omega
  | @release d hg hd =>
    have hle := (h.held d).le
    have hu := update_sub_one (x := x) (show 0 < s.adb.holders d by omega)
    have hg := update_sub_one (x := x) hg
    simp only [unhold]
    omega
  | adb ha ht =>
    rw [(inQueues_frame ha ht).1]
    exact hx

theorem Life.known_act (h : s.Life) (ha : Acts s a s') (hd : s'.adb.created d = true) : d.pDevice < s'.created := by
  cases ha with
  | @scanNew newList szId todo hpc hf =>
    rw [h.lists.attach_eq hpc] at hd ⊢
    by_cases hx : d = ⟨s.created, szId⟩
    · rw [hx]
      exact Nat.lt_succ_self _
    · exact Nat.lt_succ_of_lt (h.known d ((Function.update_of_ne hx ..).symm.trans hd))
  | popFront hpc =>
    rw [(h.lists.detach_eq hpc).2] at hd ⊢
    exact h.known d hd
  | adb ha ht =>
    refine h.known d ?_
    rw [← (inQueues_frame ha ht).2]
    exact hd
  | _ => exact h.known d hd

theorem tally_deaths (s : AdbMonState Id) (o : Option (SmartDev Id)) (d : SmartDev Id) : (s.tally o).deaths d =
    if o = some d ∧ s.adb.lRefCnt d = 0 then s.deaths d + 1 else s.deaths d := rfl

theorem Life.deaths_act (h : s.Life) (ha : Acts s a s') (d : SmartDev Id) : (s'.tally (s.released a)).deaths d =
    if s'.adb.created d = true ∧ s'.adb.lRefCnt d = 0 then 1 else 0 := by
  have hd := h.deaths d
  have hkeep : s'.deaths d = s.deaths d := by
    cases ha with
    | @scanNew newList szId todo hpc hf => rw [h.lists.attach_eq hpc]
    | popFront hpc => rw [(h.lists.detach_eq hpc).2]
    | _ => rfl
  rw [tally_deaths, hkeep, hd]
  rcases h.adbStep ha with ⟨he, hr⟩ | ⟨b, hb, hr⟩
  · rw [if_neg (by rw [hr]; exact fun he => by cases he.1), he]
  · rw [← hr]
    rcases counts_step h.adb.refs hb with ⟨hr', h0, h1, hc⟩ | ⟨hr', h0, hc⟩ | ⟨hr', h0, h1⟩
    · -- the count was positive, so the device has not died before
      have hcr : s.adb.created d = true := by
        rw [← Bool.not_eq_false]
        intro hf
        exact h0.ne' ((h.adb.refs d).fresh hf)
      have hn : ¬ (s.adb.created d = true ∧ s.adb.lRefCnt d = 0) := fun he => h0.ne' he.2
      rw [if_neg hn, hc]
      exact if_congr ((and_iff_right hr').trans (and_iff_right hcr).symm) rfl rfl
    · rw [if_neg fun he => hr' he.1, hc]
      exact if_congr (and_congr_right fun _ => h0.symm) rfl rfl
    · have hn : ¬ (s.adb.created d = true ∧ s.adb.lRefCnt d = 0) := fun he => by
        rw [h0] at he
        cases he.1
      have hn' : ¬ (s'.adb.created d = true ∧ s'.adb.lRefCnt d = 0) := fun he => h1.ne' he.2
      rw [if_neg fun he => hr' he.1, if_neg hn, if_neg hn']

theorem Life.step (h : s.Life) (hs : s.step a = some s') : s'.Life := by
  obtain ⟨t, ht, rfl⟩ := step_some hs
  constructor
  · exact h.lists.step hs
  · show ExecInv t.adb
    rcases h.adbStep ht with ⟨he, -⟩ | ⟨b, hb, -⟩
    · rw [he]
      exact h.adb
    · exact h.adb.step hb
  · show ∀ d, t.adb.created d = true → d.pDevice < t.created
    exact fun d hd => h.known_act ht hd
  · exact fun d => h.held_act ht d
  · exact h.deaths_act ht

omit [DecidableEq Id] in
theorem life_start [DecidableEq Id] : (start : AdbMonState Id).Life where
  lists := lists_start
  adb := execInv_start
  known _ h := by cases h
  held _ := rfl
  deaths _ := (if_neg fun h => by cases h.1).symm

theorem life_reach (h : (machine Id).Reach s) : s.Life :=
  h.invariant (by rintro _ rfl; exact life_start) fun _ _ _ hi hs => hi.step hs

/-- **The count is 0 when nothing refers to the device**, the windows of `DeviceCenter`'s calls included. -/
theorem Life.dead_iff (h : s.Life) : s.adb.lRefCnt d = 0 ↔ ¬ s.InUse d := by
  have hsum := (h.adb.refs d).sum
  have hh := h.held d
  have hpc := count_pc s.pc d
  have hcenter := h.lists.center.count_eq d
  rw [Held, List.count_append] at hh
  rw [List.count_append] at hcenter
  have hl : s.adb.listRefs d = 0 ↔ ¬ ∃ q, d ∈ s.adb.execList q := by
    unfold listRefs
    rw [Finset.sum_eq_zero_iff]
    simp only [Finset.mem_univ, true_implies, List.count_eq_zero, not_exists]
  have hw : s.adb.workRefs d = 0 ↔ ¬ ∃ w, (s.adb.worker w).on d ≠ 0 := by
    unfold workRefs
    rw [Finset.sum_eq_zero_iff]
    simp only [Finset.mem_univ, true_implies, not_exists, not_not]
  have hholders : s.adb.holders d = 0 ↔ s.deviceList.count d = 0 ∧ s.pc.held.count d = 0 ∧
      s.center.deviceList.count d = 0 ∧ s.got d = 0 := by omega
  unfold InUse
  rw [not_or, not_or, not_or, not_or, not_or, ← hl, ← hw, ← List.count_eq_zero, ← List.count_eq_zero,
    ← List.count_eq_zero]
  omega

/-- **Every device outlives its uses**, and dies with its queues empty. -/
theorem device_outlives (h : (machine Id).Reach s) (hc : s.adb.created d = true) : s.Outlives d := by
  have hl := life_reach h
  have hempty : s.adb.lRefCnt d = 0 → ∀ q, s.adb.cmdList d q = [] :=
    fun h0 q => (hl.adb.refs d).empty hl.adb.tokens h0 q
  constructor
  · exact hl.dead_iff
  · rw [hl.deaths d]
    exact if_congr (and_iff_right hc) rfl rfl
  · refine fun h0 q => ⟨hempty h0 q, ?_⟩
    rw [AdbState.step, hempty h0 q]
    split <;> rfl

/-- A device that is unplugged while a caller has it, and dies when the caller releases it. -/
def unpluggedRun : List (AdbMonStep Nat) := [.processDevices [7], .scan, .addRef, .onAttached, .popFront, .getDevice 7,
  .adb (.queueCmd ⟨0, 7⟩ 5 .getSysinfo .devTableMod), .adb (.request ⟨0, 7⟩ 0), .adb (.post ⟨0, 7⟩ 0),
  .processDevices [], .popFront, .centerRelease, .onDetached, .drop, .popFront, .release ⟨0, 7⟩, .adb (.loopTest 0),
  .adb (.wait 0), .adb (.test 0), .adb (.begin 0), .adb (.executeOne 0), .adb (.next 0), .adb (.releaseDev 0)]

theorem device_outlives_unplugged : ∃ s, (machine Nat).run start unpluggedRun = some s ∧
    s.adb.lRefCnt ⟨0, 7⟩ = 0 ∧ s.deaths ⟨0, 7⟩ = 1 ∧ s.Outlives ⟨0, 7⟩ := by
  obtain ⟨s, hs, h⟩ := Option.map_eq_some_iff.1
    (show ((machine Nat).run start unpluggedRun).map (fun s =>
      (s.adb.created ⟨0, 7⟩, s.adb.lRefCnt ⟨0, 7⟩, s.deaths ⟨0, 7⟩)) = some (true, 0, 1) by decide)
  obtain ⟨hc, h⟩ := Prod.mk.inj h
  obtain ⟨h0, h1⟩ := Prod.mk.inj h
  exact ⟨s, hs, h0, h1, device_outlives (Machine.Reach.run (.init rfl) hs) hc⟩

end AdbMonState

end DevMgr
