import DevMgr.AdbServe
/-!
# AdbPool — threads of a queue that sleep while its list has devices

`Request` posts once when it finds `_ExecList[q]` empty, whatever the number of the queue's threads.  A list that is
not empty is looked at by some thread (`Awake`).  Where that is the queue's only thread no other one sleeps beside the
list (`Conserving`); a queue of several threads wakes one of them for a burst.
-/
namespace DevMgr

open Machines

namespace AdbState

variable {Dev : Type} [DecidableEq Dev] {s : AdbState Dev} {q : Queue}

/-- Before `Cleanup`, a semaphore that is 0 and that no `Request` is about to post. -/
def Unposted (s : AdbState Dev) (q : Queue) : Prop :=
  s.bExecQuit = false ∧ (∀ d, s.call d q ≠ .posting true) ∧ s.hExecEvent q = 0

/-- No thread of the queue is blocked while the list has a device. -/
def Conserving (s : AdbState Dev) (q : Queue) : Prop :=
  Unposted s q → s.execList q ≠ [] → ∀ w, threadQueue w = q → s.worker w ≠ .waiting

/-- **The queues of one thread** conserve in every run: a thread that sleeps leaves its list empty. -/
theorem single_conserves {publicFlush : Bool} (h : (machine Dev publicFlush).Reach s) (hq : adbCmdThreadMap q = 1) :
    Conserving s q := by
  have hawake : Awake s q := by
    apply h.invariant
    · rintro _ rfl hne
      exact absurd rfl hne
    · exact fun _ _ _ hi hs => hi.step hs
  rintro ⟨-, hcall, h0⟩ hne w hw hwait
  rcases hawake hne with hpos | ⟨w', hw', hon⟩ | ⟨d, hd⟩
  · rw [h0] at hpos
    cases hpos
  · have hsame : ∀ q w w', adbCmdThreadMap q = 1 → threadQueue w = q → threadQueue w' = q → w' = w := by decide
    rw [hsame q w w' hq hw hw', hwait] at hon
    cases hon
  · exact hcall d hd

instance (s : AdbState Bool) (q : Queue) : Decidable (Unposted s q) :=
  inferInstanceAs (Decidable (s.bExecQuit = false ∧ (∀ d, s.call d q ≠ .posting true) ∧ s.hExecEvent q = 0))

/-- Two threads of the queue of `code` go to block; two devices ask for that queue before the one thread that is woken
takes either, and it begins the command of the first. -/
def burstRun (code : DevCmdCode) (w w' : Thread) : List (AdbStep Bool) := [.newDevice false, .newDevice true,
  .updateState false false, .updateState true false, .loopTest w, .loopTest w', .queueCmd false 7 code .appTableMod,
  .request false (threadQueue w), .post false (threadQueue w), .queueCmd true 8 code .appTableMod,
  .request true (threadQueue w), .post true (threadQueue w), .wait w, .test w, .begin w, .executeOne w]

/-- The second device waits behind the command of the first while the other thread sleeps. -/
def Burst (s : AdbState Bool) (code : DevCmdCode) (w w' : Thread) : Prop :=
  Unposted s (threadQueue w) ∧ s.execList (threadQueue w) = [true] ∧
    s.worker w = .executing false ⟨0, 7, code, .appTableMod⟩ ∧ s.worker w' = .waiting

instance (s : AdbState Bool) (code : DevCmdCode) (w w' : Thread) : Decidable (Burst s code w w') :=
  inferInstanceAs (Decidable (Unposted s (threadQueue w) ∧ s.execList (threadQueue w) = [true] ∧
    s.worker w = .executing false ⟨0, 7, code, .appTableMod⟩ ∧ s.worker w' = .waiting))

theorem Burst.not_conserving {s : AdbState Bool} {code : DevCmdCode} {w w' : Thread} (h : Burst s code w w')
    (hw : threadQueue w' = threadQueue w) : ¬ Conserving s (threadQueue w) := by
  obtain ⟨hu, hl, -, hwait⟩ := h
  exact fun hc => hc hu (by rw [hl]; exact List.cons_ne_nil _ _) w' hw hwait

theorem burst_of_run (code : DevCmdCode) (w w' : Thread)
    (h : ((machine Bool false).run start (burstRun code w w')).map (fun s => decide (Burst s code w w')) = some true) :
    ∃ s, (machine Bool false).run start (burstRun code w w') = some s ∧ Burst s code w w' := by
  obtain ⟨s, hs, hb⟩ := Option.map_eq_some_iff.1 h
  exact ⟨s, hs, of_decide_eq_true hb⟩

/-- A queue of several threads has a run in which one of them sleeps beside a listed device. -/
theorem multi_not_conserving (hq : adbCmdThreadMap q ≠ 1) :
    ∃ s : AdbState Bool, (machine Bool false).Reach s ∧ ¬ Conserving s q := by
  match q, hq with
  | 0, hq | 1, hq => exact absurd rfl hq
  | 2, _ =>
    obtain ⟨s, hs, hb⟩ := burst_of_run .installApp 2 3 (by decide)
    exact ⟨s, (Machine.Reach.init rfl).run hs, hb.not_conserving (by decide)⟩
  | 3, _ =>
    obtain ⟨s, hs, hb⟩ := burst_of_run .pushFile 6 7 (by decide)
    exact ⟨s, (Machine.Reach.init rfl).run hs, hb.not_conserving (by decide)⟩

/-- **Which pools are work-conserving**: those of the queues that have one thread. -/
theorem pool_conserves (q : Queue) :
    (∀ (Dev : Type) [DecidableEq Dev] (publicFlush : Bool) (s : AdbState Dev),
      (machine Dev publicFlush).Reach s → Conserving s q) ↔ adbCmdThreadMap q = 1 := by
  constructor
  · intro hall
    by_contra hq
    obtain ⟨s, hreach, hs⟩ := multi_not_conserving hq
    exact hs (hall Bool false s hreach)
  · exact fun hq Dev _ publicFlush s hreach => single_conserves hreach hq

/-- **A device waits behind the command of another one while a thread of its queue sleeps.** -/
theorem burst_not_conserving : ∃ s, (machine Bool false).run start (burstRun .installApp 2 3) = some s ∧
    s.worker 2 = .executing false ⟨0, 7, .installApp, .appTableMod⟩ ∧ s.execList 2 = [true] ∧
    s.worker 3 = .waiting ∧ s.hExecEvent 2 = 0 ∧ ¬ Conserving s 2 := by
  obtain ⟨s, hs, hb⟩ := burst_of_run .installApp 2 3 (by decide)
  exact ⟨s, hs, hb.2.2.1, hb.2.1, hb.2.2.2, hb.1.2.2, hb.not_conserving (by decide)⟩

end AdbState

end DevMgr
