import DevMgr.AdbServe
/-!
# AdbFlush — `FlushCmds` on a device that is in use

`FlushCmds` takes the commands of a queue from whoever is about to run them.  A `QueueCmd` that follows sees an empty
queue that nobody runs and asks for the device again, though its token is in the list or with a thread before `Execute`:
the runs without such a `QueueCmd` (`Exclusive`) keep the token in one place.  In every run a record is in one place.
-/
namespace DevMgr

open Machines

namespace AdbState

variable {Dev : Type} [DecidableEq Dev] {s s' : AdbState Dev} {d d₀ : Dev} {q q₀ : Queue} {w : Thread}

/-- Each record of a device queue waits in it, was given to `ExecuteOne`, or was cancelled by `FlushCmds`. -/
structure Delivered (s : AdbState Dev) (d : Dev) (q : Queue) : Prop where
  records : (s.queued d q).Perm (s.executed d q ++ s.flushed d q ++ s.cmdList d q)
  numbered : (s.queued d q).map CmdRec.pRec = List.range (s.queued d q).length

omit [DecidableEq Dev] in
theorem Delivered.congr (h : Delivered s d q) (h1 : s'.queued d q = s.queued d q)
    (h2 : s'.executed d q = s.executed d q) (h3 : s'.flushed d q = s.flushed d q)
    (h4 : s'.cmdList d q = s.cmdList d q) : Delivered s' d q where
  records := by rw [h1, h2, h3, h4]; exact h.records
  numbered := by rw [h1, h.numbered]

omit [DecidableEq Dev] in
theorem Delivered.nodup (h : Delivered s d q) : ((s.queued d q).map CmdRec.pRec).Nodup := by
  rw [h.numbered]
  exact List.nodup_range

theorem Delivered.queueCmd (h : Delivered s d q) {dwCmdIdx : Nat} {cmdCode : DevCmdCode} {pObserver : CmdObserver} :
    Delivered (s.queueCmd d₀ q₀ dwCmdIdx cmdCode pObserver) d q := by
  by_cases hne : d = d₀ ∧ q = q₀
  · obtain ⟨rfl, rfl⟩ := hne
    constructor
    · have hr := h.records.append_right [⟨(s.queued d q).length, dwCmdIdx, cmdCode, pObserver⟩]
      rw [List.append_assoc _ (s.cmdList d q)] at hr
      simpa [AdbState.queueCmd] using hr
    · simp [AdbState.queueCmd, h.numbered, List.range_succ]
  · exact h.congr (upd₂_of_ne _ _ _ _ hne) rfl rfl (upd₂_of_ne _ _ _ _ hne)

theorem Delivered.takeCmd (h : Delivered s d q) : Delivered (s.takeCmd w d₀ q₀) d q := by
  unfold AdbState.takeCmd
  cases hm : s.cmdList d₀ q₀ with
  | nil => exact h.congr rfl rfl rfl rfl
  | cons r rs =>
    by_cases hne : d = d₀ ∧ q = q₀
    · obtain ⟨rfl, rfl⟩ := hne
      refine ⟨?_, h.numbered⟩
      have hr := h.records
      rw [hm] at hr
      show (s.queued d q).Perm (upd₂ s.executed d q (s.executed d q ++ [r]) d q ++ s.flushed d q ++
        upd₂ s.cmdList d q rs d q)
      rw [upd₂_self, upd₂_self]
      apply hr.trans
      rw [List.append_assoc, List.append_assoc, List.append_assoc, List.singleton_append]
      exact List.Perm.append_left _ List.perm_middle
    · exact h.congr rfl (upd₂_of_ne _ _ _ _ hne) rfl (upd₂_of_ne _ _ _ _ hne)

theorem Delivered.flush (h : Delivered s d q) {r : CmdRec} {rs : List CmdRec} (hm : s.cmdList d₀ q₀ = r :: rs) :
    Delivered { s.event d₀ q₀ r .onCancelled with
      cmdList := upd₂ s.cmdList d₀ q₀ rs, flushed := upd₂ s.flushed d₀ q₀ (s.flushed d₀ q₀ ++ [r]) } d q := by
  by_cases hne : d = d₀ ∧ q = q₀
  · obtain ⟨rfl, rfl⟩ := hne
    refine ⟨?_, h.numbered⟩
    have hr := h.records
    rw [hm] at hr
    show (s.queued d q).Perm
      (s.executed d q ++ upd₂ s.flushed d q (s.flushed d q ++ [r]) d q ++ upd₂ s.cmdList d q rs d q)
    rw [upd₂_self, upd₂_self, ← List.append_assoc, List.append_assoc _ [r], List.singleton_append]
    exact hr
  · exact h.congr rfl rfl (upd₂_of_ne _ _ _ _ hne) (upd₂_of_ne _ _ _ _ hne)

/-- **Every step keeps each record in one place.** -/
theorem Delivered.step {publicFlush : Bool} {a : AdbStep Dev} (h : Delivered s d q)
    (hs : AdbState.step publicFlush s a = some s') : Delivered s' d q := by
  cases act_some hs with
  | queueCmd _ _ => exact h.queueCmd
  | request _ =>
    unfold AdbState.request
    split
    · exact h.congr rfl rfl rfl rfl
    · exact h.congr rfl rfl rfl rfl
  | flush _ _ hm => exact h.flush hm
  | @begin w d₀ _ _ =>
    have h' : Delivered (s.setRunning d₀ (threadQueue w)) d q := h.congr rfl rfl rfl rfl
    exact h'.takeCmd
  | next _ _ => exact h.takeCmd
  | _ => exact h.congr rfl rfl rfl rfl

/-! ## Every run without such a `QueueCmd` -/

instance (s : AdbState Dev) : (a : AdbStep Dev) → Decidable (Exclusive s a)
  | .queueCmd d _ cmdCode _ => inferInstanceAs (Decidable (s.cmdList d (adbCmdQueueMap cmdCode) = [] ∧
      s.bRunning d (adbCmdQueueMap cmdCode) = false →
        d ∉ s.execList (adbCmdQueueMap cmdCode) ∧
          ∀ w, threadQueue w = adbCmdQueueMap cmdCode → s.worker w ≠ .popped d))
  | .quit | .quitPost _ | .newDevice _ | .addRef _ | .release _ | .updateState _ _ | .request _ _ | .post _ _
  | .flush _ _ | .loopTest _ | .wait _ | .test _ | .begin _ | .executeOne _ | .finish _ _ | .next _ | .releaseDev _ =>
    inferInstanceAs (Decidable True)

/-- What holds of the device queues whoever flushes them. -/
structure FlushInv (s : AdbState Dev) : Prop where
  locations : Locations s
  delivered : ∀ d q, Delivered s d q
  awake : ∀ q, Awake s q
  fresh : s.alreadyExists = false

theorem flushInv_start : FlushInv (start : AdbState Dev) where
  locations := execInv_start.tokens.locations
  delivered := fun _ _ => ⟨List.Perm.refl _, rfl⟩
  awake := execInv_start.awake
  fresh := rfl

theorem FlushInv.step {publicFlush : Bool} {a : AdbStep Dev} (h : FlushInv s) (hx : Exclusive s a)
    (hs : AdbState.step publicFlush s a = some s') : FlushInv s' where
  locations := h.locations.step hs hx
  delivered := fun d q => (h.delivered d q).step hs
  awake := fun q => (h.awake q).step hs
  fresh := by
    rw [alreadyExists_step hs, h.fresh]
    rintro d q rfl
    obtain ⟨loc, ht⟩ := h.locations d q
    exact ht.request_fresh (guard_some hs).1

theorem flushInv_reach {publicFlush : Bool} (h : (machine Dev publicFlush).ReachWhen Exclusive s) : FlushInv s := by
  apply h.invariant
  · rintro _ rfl
    exact flushInv_start
  · exact fun _ _ _ hi hx hs => hi.step hx hs

/-- **What the others do**: `Request` finds the device in the list, or puts it there with a thread about to run it. -/
theorem not_exclusive {publicFlush : Bool} {dwCmdIdx : Nat} {cmdCode : DevCmdCode} {pObserver : CmdObserver}
    (hx : ¬ Exclusive s (.queueCmd d dwCmdIdx cmdCode pObserver))
    (hs : AdbState.step publicFlush s (.queueCmd d dwCmdIdx cmdCode pObserver) = some s') :
    ∃ t, AdbState.step publicFlush s' (.request d (adbCmdQueueMap cmdCode)) = some t ∧
      (t.alreadyExists = true ∨ (d ∈ t.execList (adbCmdQueueMap cmdCode) ∧
        ∃ w, threadQueue w = adbCmdQueueMap cmdCode ∧ t.worker w = .popped d)) := by
  obtain ⟨hedge, hbusy⟩ := Classical.not_imp.1 hx
  obtain ⟨-, rfl⟩ := guard_some hs
  refine ⟨_, if_pos (by simp [AdbState.queueCmd, hedge]), ?_⟩
  unfold AdbState.request
  by_cases hl : d ∈ s.execList (adbCmdQueueMap cmdCode)
  · left
    rw [if_pos (show d ∈ (s.queueCmd d (adbCmdQueueMap cmdCode) dwCmdIdx cmdCode pObserver).execList _ from hl)]
  · right
    rw [if_neg (show d ∉ (s.queueCmd d (adbCmdQueueMap cmdCode) dwCmdIdx cmdCode pObserver).execList _ from hl)]
    refine ⟨by simp, ?_⟩
    by_contra hn
    exact hbusy ⟨hl, fun w hq hw => hn ⟨w, hq, hw⟩⟩

/-- **Where no `QueueCmd` asks for a device queue that somebody has**, whatever `FlushCmds` takes: at most one thread
has a device queue, `Request` never finds the device in its list, every record queued is with the queue, `ExecuteOne`
or `FlushCmds`, one of them and once, and a queue with records has somebody to run it. -/
theorem flush_exclusive (h : (machine Dev true).ReachWhen Exclusive s) (d : Dev) (q : Queue) :
    (∀ w w', threadQueue w = q → threadQueue w' = q → (s.worker w).window d ≠ none → (s.worker w').window d ≠ none →
      w = w') ∧
    s.alreadyExists = false ∧
    (s.queued d q).Perm (s.executed d q ++ s.flushed d q ++ s.cmdList d q) ∧ ((s.queued d q).map CmdRec.pRec).Nodup ∧
    (s.cmdList d q ≠ [] → s.call d q = .requesting ∨ d ∈ s.execList q ∨
      ∃ w, threadQueue w = q ∧ (s.worker w).window d ≠ none) ∧
    (s.execList q ≠ [] → 0 < s.hExecEvent q ∨ (∃ w, threadQueue w = q ∧ (s.worker w).awake = true) ∨
      ∃ d, s.call d q = .posting true) := by
  have hi := flushInv_reach h
  obtain ⟨loc, ht⟩ := hi.locations d q
  refine ⟨?_, hi.fresh, (hi.delivered d q).records, (hi.delivered d q).nodup, ?_, hi.awake q⟩
  · intro w w' hq hq' hw hw'
    obtain ⟨b, hb⟩ := Option.ne_none_iff_exists'.1 hw
    obtain ⟨b', hb'⟩ := Option.ne_none_iff_exists'.1 hw'
    have h1 := (ht.work w hq b).1 hb
    rw [(ht.work w' hq' b').1 hb'] at h1
    exact (Loc.work.inj h1).1.symm
  · intro hne
    cases loc with
    | nowhere => exact absurd (ht.empty rfl) hne
    | requesting => exact .inl (ht.call.2 rfl)
    | listed =>
      refine .inr (.inl (List.count_pos_iff.1 ?_))
      rw [ht.list]
      exact Nat.one_pos
    | work w b =>
      have hq := ht.queue w b rfl
      refine .inr (.inr ⟨w, hq, ?_⟩)
      rw [(ht.work w hq b).2 rfl]
      simp

/-- A flush of a device in the list; its thread finds the queue empty, and then a command comes. -/
def flushedRun : List (AdbStep Nat) := [.newDevice 0, .updateState 0 false, .queueCmd 0 7 .getSysinfo .devTableMod,
  .request 0 0, .post 0 0, .flush 0 0, .loopTest 0, .wait 0, .test 0, .begin 0, .releaseDev 0,
  .queueCmd 0 8 .getBattinfo .devTableMod, .request 0 0]

theorem flush_exclusive_flushed : ∃ s, (machine Nat true).runWhen Exclusive start flushedRun = some s ∧
    s.flushed 0 0 = [⟨0, 7, .getSysinfo, .devTableMod⟩] ∧ s.alreadyExists = false ∧
    (s.queued 0 0).Perm (s.executed 0 0 ++ s.flushed 0 0 ++ s.cmdList 0 0) := by
  obtain ⟨s, hs, hw⟩ := Option.map_eq_some_iff.1 (show ((machine Nat true).runWhen Exclusive start flushedRun).map
    (fun s => s.flushed 0 0) = some [⟨0, 7, .getSysinfo, .devTableMod⟩] by decide)
  obtain ⟨-, h2, h3, -⟩ := flush_exclusive (Machine.ReachWhen.runWhen (.init rfl) hs) 0 0
  exact ⟨s, hs, hw, h2, h3⟩

/-- A flush of a device that a thread has, and a `QueueCmd` before the thread is at `Execute`. -/
def doubledRun : List (AdbStep Nat) := [.newDevice 0, .updateState 0 false, .loopTest 2, .loopTest 3,
  .queueCmd 0 7 .installApp .devTableMod, .request 0 2, .post 0 2, .wait 2, .test 2, .flush 0 2,
  .queueCmd 0 8 .installApp .devTableMod, .request 0 2, .post 0 2, .wait 3, .test 3, .begin 2, .executeOne 2,
  .queueCmd 0 9 .installApp .devTableMod, .begin 3, .executeOne 3]

/-- A flush of a device in the list, and a `QueueCmd` before a thread takes it. -/
def listedRun : List (AdbStep Nat) := [.newDevice 0, .queueCmd 0 7 .installApp .devTableMod, .request 0 2,
  .post 0 2, .flush 0 2, .queueCmd 0 8 .installApp .devTableMod, .request 0 2]

/-- **Two threads run commands of one device queue, and `Request` finds its device in the list**, after a flush. -/
theorem flush_not_safe :
    (∃ s, (machine Nat true).Reach s ∧ threadQueue 2 = threadQueue 3 ∧
      s.worker 2 = .executing 0 ⟨1, 8, .installApp, .devTableMod⟩ ∧
      s.worker 3 = .executing 0 ⟨2, 9, .installApp, .devTableMod⟩) ∧
    ∃ s, (machine Nat true).Reach s ∧ s.alreadyExists = true := by
  constructor
  · obtain ⟨s, hs, hw⟩ := Option.map_eq_some_iff.1 (show ((machine Nat true).run start doubledRun).map
      (fun s => (s.worker 2, s.worker 3)) = some (.executing 0 ⟨1, 8, .installApp, .devTableMod⟩,
        .executing 0 ⟨2, 9, .installApp, .devTableMod⟩) by decide)
    exact ⟨s, (Machine.Reach.init rfl).run hs, rfl, congrArg Prod.fst hw, congrArg Prod.snd hw⟩
  · obtain ⟨s, hs, hw⟩ := Option.map_eq_some_iff.1 (show ((machine Nat true).run start listedRun).map
      (fun s => s.alreadyExists) = some true by decide)
    exact ⟨s, (Machine.Reach.init rfl).run hs, hw⟩

end AdbState

end DevMgr
