import DevMgr.AdbToken
import Mathlib.Algebra.Order.BigOperators.Group.Finset
/-!
# AdbRefs — the reference counts of the devices

A device's count is the references held outside, those of its entries in the lists of `_ExecList` and those of the
threads that took it.  So a device whose destructor runs is in no list and with no thread, and its queues are empty.
-/
namespace DevMgr

open Machines

/-- The references to `d` a thread holds. -/
def WorkPc.on {Dev : Type} [DecidableEq Dev] (d : Dev) : WorkPc Dev → Nat
  | .popped d' | .executeOne d' _ | .executing d' _ | .next d' | .releasing d' => if d' = d then 1 else 0
  | _ => 0

theorem on_of_window {Dev : Type} [DecidableEq Dev] {d : Dev} {pc : WorkPc Dev} {b : Bool}
    (h : pc.window d = some b) : pc.on d = 1 := by
  cases pc <;> simp_all [WorkPc.window, WorkPc.on]

namespace AdbState

variable {Dev : Type} [DecidableEq Dev] {s s' : AdbState Dev} {d d₀ : Dev} {q q₀ : Queue} {w : Thread}

/-- The references in the lists. -/
def listRefs (s : AdbState Dev) (d : Dev) : Nat := ∑ q, (s.execList q).count d

/-- The references of the threads. -/
def workRefs (s : AdbState Dev) (d : Dev) : Nat := ∑ w, (s.worker w).on d

structure Refs (s : AdbState Dev) (d : Dev) : Prop where
  sum : s.lRefCnt d = s.holders d + s.listRefs d + s.workRefs d
  call : ∀ q, s.call d q ≠ .none → 0 < s.holders d
  fresh : s.created d = false → s.lRefCnt d = 0

theorem listRefs_update {l : List Dev} (h : s'.execList = Function.update s.execList q l) (d : Dev) :
    s'.listRefs d + (s.execList q).count d = s.listRefs d + l.count d := by
  have := sum_change (fun (_ : Queue) (l : List Dev) => l.count d) q
    (show ∀ x, x ≠ q → s'.execList x = s.execList x from fun x hx => by rw [h, Function.update_of_ne hx])
  rw [h, Function.update_self] at this
  unfold listRefs
  rw [h]
  exact this

theorem workRefs_setWorker {pc : WorkPc Dev} (h : s'.worker = Function.update s.worker w pc) (d : Dev) :
    s'.workRefs d + (s.worker w).on d = s.workRefs d + pc.on d := by
  have := sum_change (fun (_ : Thread) (pc : WorkPc Dev) => pc.on d) w
    (show ∀ x, x ≠ w → s'.worker x = s.worker x from fun x hx => by rw [h, Function.update_of_ne hx])
  rw [h, Function.update_self] at this
  unfold workRefs
  rw [h]
  exact this

theorem Refs.congr (h : Refs s d) (h1 : s'.lRefCnt d = s.lRefCnt d) (h2 : s'.holders d = s.holders d)
    (h3 : s'.listRefs d = s.listRefs d) (h4 : s'.workRefs d = s.workRefs d)
    (h5 : ∀ q, s'.call d q ≠ .none → s.call d q ≠ .none) (h6 : s'.created d = s.created d) : Refs s' d where
  sum := by rw [h1, h2, h3, h4, h.sum]
  call := fun q hq => by rw [h2]; exact h.call q (h5 q hq)
  fresh := by rw [h6, h1]; exact h.fresh

/-- A thread's move that keeps its references. -/
theorem workRefs_keep {pc : WorkPc Dev} (h : s'.worker = Function.update s.worker w pc)
    (hpc : ∀ d, pc.on d = (s.worker w).on d) (d : Dev) : s'.workRefs d = s.workRefs d := by
  have := workRefs_setWorker h d
  rw [hpc d] at this
  omega

theorem Refs.takeCmd (h : Refs s d) {r : WorkPc Dev} (hw : s.worker w = r)
    (hr : ∀ d, r.on d = if d₀ = d then 1 else 0) :
    Refs (s.takeCmd w d₀ q) d := by
  unfold AdbState.takeCmd
  cases s.cmdList d₀ q with
  | nil => exact h.congr rfl rfl rfl (workRefs_keep rfl (fun d => by rw [hw, hr]; rfl) d) (fun _ hq => hq) rfl
  | cons r rs => exact h.congr rfl rfl rfl (workRefs_keep rfl (fun d => by rw [hw, hr]; rfl) d) (fun _ hq => hq) rfl

section
variable {publicFlush : Bool}

/-- A new device has the reference of its maker. -/
theorem Refs.newDevice (h : Refs s d) {d₀ : Dev}
    (hs : AdbState.step publicFlush s (.newDevice d₀) = some s') : Refs s' d := by
  obtain ⟨hg, rfl⟩ := guard_some hs
  by_cases hd : d = d₀
  · subst hd
    have h0 := h.sum
    rw [h.fresh hg] at h0
    have h1 : s.listRefs d = 0 := by omega
    have h2 : s.workRefs d = 0 := by omega
    refine ⟨?_, fun q hq => ?_, fun hn => ?_⟩
    · show Function.update s.lRefCnt d 1 d = Function.update s.holders d 1 d + s.listRefs d + s.workRefs d
      rw [Function.update_self, Function.update_self, h1, h2]
    · show 0 < Function.update s.holders d 1 d
      rw [Function.update_self]
      exact Nat.one_pos
    · have hn' : Function.update s.created d true d = false := hn
      rw [Function.update_self] at hn'
      cases hn'
  · exact h.congr (Function.update_of_ne hd ..) (Function.update_of_ne hd ..) rfl rfl (fun _ hq => hq)
      (Function.update_of_ne hd ..)

theorem Refs.addRef (h : Refs s d) {d₀ : Dev}
    (hs : AdbState.step publicFlush s (.addRef d₀) = some s') : Refs s' d := by
  obtain ⟨hg, rfl⟩ := guard_some hs
  by_cases hd : d = d₀
  · subst hd
    refine ⟨?_, fun q hq => ?_, fun hn => ?_⟩
    · show Function.update s.lRefCnt d (s.lRefCnt d + 1) d = Function.update s.holders d (s.holders d + 1) d +
        s.listRefs d + s.workRefs d
      rw [Function.update_self, Function.update_self, h.sum]
      omega
    · show 0 < Function.update s.holders d (s.holders d + 1) d
      rw [Function.update_self]
      exact Nat.succ_pos _
    · have h0 := h.fresh hn
      have h1 := h.sum
      omega
  · exact h.congr (Function.update_of_ne hd ..) (Function.update_of_ne hd ..) rfl rfl (fun _ hq => hq) rfl

theorem Refs.release (h : Refs s d) {d₀ : Dev}
    (hs : AdbState.step publicFlush s (.release d₀) = some s') : Refs s' d := by
  obtain ⟨⟨hg, hc⟩, rfl⟩ := guard_some hs
  by_cases hd : d = d₀
  · subst hd
    refine ⟨?_, fun q hq => ?_, fun hn => ?_⟩
    · show Function.update s.lRefCnt d (s.lRefCnt d - 1) d = Function.update s.holders d (s.holders d - 1) d +
        s.listRefs d + s.workRefs d
      rw [Function.update_self, Function.update_self, h.sum]
      omega
    · show 0 < Function.update s.holders d (s.holders d - 1) d
      rw [Function.update_self]
      have := hc.resolve_right fun hn => hq (hn q)
      omega
    · have h0 := h.fresh hn
      have h1 := h.sum
      omega
  · exact h.congr (Function.update_of_ne hd ..) (Function.update_of_ne hd ..) rfl rfl (fun _ hq => hq) rfl

/-- A device that joins `_ExecList` is referenced from there. -/
theorem Refs.request (h : Refs s d) {d₀ : Dev} {q₀ : Queue}
    (hs : AdbState.step publicFlush s (.request d₀ q₀) = some s') : Refs s' d := by
  obtain ⟨hg, rfl⟩ := guard_some hs
  have hcall : ∀ pc q, (upd₂ s.call d₀ q₀ pc) d q ≠ .none → s.call d q ≠ .none := by
    intro pc q hq
    by_cases hne : d = d₀ ∧ q = q₀
    · rw [hne.1, hne.2, hg]
      simp
    · rwa [upd₂_of_ne _ _ _ _ hne] at hq
  unfold AdbState.request
  split
  · exact h.congr rfl rfl rfl rfl (hcall _) rfl
  · obtain ⟨t, ht⟩ : ∃ t : AdbState Dev, t = { (s.addRef d₀).setCall d₀ q₀ (.posting (s.execList q₀).isEmpty) with
      execList := Function.update s.execList q₀ (s.execList q₀ ++ [d₀]) } := ⟨_, rfl⟩
    rw [← ht]
    have hl := listRefs_update (show t.execList = Function.update s.execList q₀ (s.execList q₀ ++ [d₀]) by rw [ht]) d
    rw [List.count_append, List.count_singleton] at hl
    by_cases hd : d = d₀
    · have hpos := h.call q₀ (by rw [hd, hg]; simp)
      have h1 : t.lRefCnt d = s.lRefCnt d + 1 ∧ t.holders d = s.holders d ∧ t.workRefs d = s.workRefs d := by
        rw [ht, hd]
        exact ⟨Function.update_self .., rfl, rfl⟩
      rw [if_pos (by simpa using hd.symm)] at hl
      have h2 := h.sum
      refine ⟨by omega, fun _ _ => by omega, fun hn => ?_⟩
      rw [ht] at hn
      have h3 := h.fresh hn
      omega
    · rw [if_neg (by simpa using Ne.symm hd)] at hl
      have hlist : t.listRefs d = s.listRefs d := by omega
      rw [ht] at hlist ⊢
      exact h.congr (Function.update_of_ne hd ..) rfl hlist rfl (hcall _) rfl

/-- A worker takes over the reference of the device it pops. -/
theorem Refs.test (h : Refs s d) {w : Thread} (hs : AdbState.step publicFlush s (.test w) = some s') : Refs s' d := by
  cases act_some hs with
  | testEmpty hw _ => exact h.congr rfl rfl rfl (workRefs_keep rfl (fun d => by rw [hw]; rfl) d) (fun _ hq => hq) rfl
  | @testPop _ d₀ ds hw hl =>
    obtain ⟨t, ht⟩ : ∃ t : AdbState Dev, t = { s.setWorker w (.popped d₀) with
      execList := Function.update s.execList (threadQueue w) ds } := ⟨_, rfl⟩
    rw [← ht]
    have h1 := listRefs_update (show t.execList = Function.update s.execList (threadQueue w) ds by rw [ht]) d
    have h2 := workRefs_setWorker (show t.worker = Function.update s.worker w (.popped d₀) by rw [ht]; rfl) d
    rw [hl, List.count_cons] at h1
    rw [hw] at h2
    have h3 : (WorkPc.popped d₀).on d = if d₀ = d then 1 else 0 := rfl
    have h4 : (WorkPc.testing : WorkPc Dev).on d = 0 := rfl
    have h5 : t.lRefCnt d = s.lRefCnt d ∧ t.holders d = s.holders d := by rw [ht]; exact ⟨rfl, rfl⟩
    refine ⟨?_, by rw [ht]; exact h.call, by rw [ht]; exact h.fresh⟩
    rw [h5.1, h5.2, h.sum]
    by_cases hd : d₀ = d
    · rw [if_pos (by simpa using hd)] at h1
      rw [if_pos hd] at h3
      omega
    · rw [if_neg (by simpa using hd)] at h1
      rw [if_neg hd] at h3
      omega

/-- A worker gives back the reference of the device it is done with. -/
theorem Refs.releaseDev (h : Refs s d) {w : Thread}
    (hs : AdbState.step publicFlush s (.releaseDev w) = some s') : Refs s' d := by
  cases act_some hs with
  | @releaseDev _ d₀ hw =>
    have h2 := workRefs_setWorker (show ((s.release d₀).setWorker w .testing).worker =
      Function.update s.worker w .testing from rfl) d
    rw [hw] at h2
    have h3 : (WorkPc.releasing d₀).on d = if d₀ = d then 1 else 0 := rfl
    have h4 : (WorkPc.testing : WorkPc Dev).on d = 0 := rfl
    by_cases hd : d₀ = d
    · subst hd
      simp only [if_true] at h3
      refine ⟨?_, h.call, fun hn => ?_⟩
      · show Function.update s.lRefCnt d₀ (s.lRefCnt d₀ - 1) d₀ = s.holders d₀ + s.listRefs d₀ + _
        rw [Function.update_self, h.sum]
        omega
      · show Function.update s.lRefCnt d₀ (s.lRefCnt d₀ - 1) d₀ = 0
        rw [Function.update_self, h.fresh hn]
    · simp only [hd, if_false] at h3
      exact h.congr (Function.update_of_ne (Ne.symm hd) ..) rfl rfl (by omega) (fun _ hq => hq) rfl

theorem Refs.step {a : AdbStep Dev} (h : Refs s d) (hs : AdbState.step publicFlush s a = some s') : Refs s' d := by
  cases act_some hs with
  | newDevice _ => exact h.newDevice hs
  | addRef _ => exact h.addRef hs
  | release _ _ => exact h.release hs
  | @queueCmd d₀ dwCmdIdx cmdCode pObserver hg _ =>
    by_cases hd : d = d₀
    · subst hd
      exact ⟨h.sum, fun _ _ => hg, h.fresh⟩
    · refine h.congr rfl rfl rfl rfl (fun q hq => ?_) rfl
      have : upd₂ s.call d₀ (adbCmdQueueMap cmdCode) _ d q ≠ .none := hq
      rwa [upd₂_of_ne _ _ _ _ fun hn => hd hn.1] at this
  | request _ => exact h.request hs
  | @post d₀ q₀ bEmpty _ =>
    refine h.congr rfl rfl rfl rfl (fun q hq => ?_) rfl
    have hq' : upd₂ s.call d₀ q₀ .none d q ≠ .none := hq
    rw [upd₂_apply] at hq'
    split at hq'
    · exact absurd rfl hq'
    · exact hq'
  | loopTest hw =>
    refine h.congr rfl rfl rfl (workRefs_keep rfl (fun d => ?_) d) (fun _ hq => hq) rfl
    rw [hw]
    split <;> rfl
  | testEmpty _ _ | testPop _ _ => exact h.test hs
  | @begin w d₀ hw _ =>
    have h' : Refs (s.setRunning d₀ (threadQueue w)) d := h.congr rfl rfl rfl rfl (fun _ hq => hq) rfl
    exact h'.takeCmd hw fun _ => rfl
  | next hw _ => exact h.takeCmd hw fun _ => rfl
  | releaseDev _ => exact h.releaseDev hs
  | wait hw _ | cancel hw _ | execute hw _ | finish hw =>
    exact h.congr rfl rfl rfl (workRefs_keep rfl (fun d => by rw [hw]; rfl) d) (fun _ hq => hq) rfl
  | _ => exact h.congr rfl rfl rfl rfl (fun _ hq => hq) rfl

end

/-- **A device without references has no commands.** -/
theorem Refs.empty (h : Refs s d) (ht : Tokens s) (h0 : s.lRefCnt d = 0) (q : Queue) : s.cmdList d q = [] := by
  have hsum := h.sum
  obtain ⟨loc, hloc⟩ := ht d q
  refine hloc.empty ?_
  cases loc with
  | nowhere => rfl
  | requesting =>
    have := h.call q (by rw [hloc.call.2 rfl]; simp)
    omega
  | listed =>
    have h1 : (s.execList q).count d ≤ s.listRefs d :=
      Finset.single_le_sum (f := fun q => (s.execList q).count d) (fun _ _ => Nat.zero_le _) (Finset.mem_univ q)
    rw [hloc.list, if_pos rfl] at h1
    omega
  | work w b =>
    have h1 : (s.worker w).on d ≤ s.workRefs d :=
      Finset.single_le_sum (f := fun w => (s.worker w).on d) (fun _ _ => Nat.zero_le _) (Finset.mem_univ w)
    have h2 : (s.worker w).on d = 1 := on_of_window ((hloc.work w (hloc.queue w b rfl) b).2 rfl)
    omega

end AdbState

end DevMgr