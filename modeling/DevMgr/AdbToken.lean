import DevMgr.SmartDeviceAdb
/-!
# AdbToken — who may work on a device queue

For each device and queue there is one token (`Loc`): held by nobody, by a `QueueCmd` about to call `Request`, by the
device's entry in `_ExecList`, or by the thread that took the device from there, until it clears `_bRunning`.  `Located`
says what each place of the token means for the list, the lock, the threads and `_bRunning`, and that a queue with
commands has its token somewhere; every step moves the token of at most one device queue, if a `QueueCmd` that calls
`Request` finds it with nobody (`Exclusive`).  Without a `FlushCmds` that finds a command, a token on its way to
`Execute` also has commands (`Fed`, and with it `TokenAt`), and no `QueueCmd` finds it there.
-/
namespace DevMgr

open Machines

/-- What a thread is to device `d`: before `Execute` (`false`), or inside it before `_bRunning` is cleared (`true`). -/
def WorkPc.window {Dev : Type} [DecidableEq Dev] (d : Dev) : WorkPc Dev → Option Bool
  | .popped d' => if d' = d then some false else none
  | .executeOne d' _ | .executing d' _ | .next d' => if d' = d then some true else none
  | _ => none

/-- Where the token of a device queue is. -/
inductive Loc where
  | nowhere
  | requesting
  | listed
  | work (w : Thread) (inside : Bool)
  deriving DecidableEq

namespace AdbState

variable {Dev : Type} [DecidableEq Dev] {s s' : AdbState Dev} {d d₀ : Dev} {q q₀ : Queue} {w : Thread} {loc : Loc}

structure TokenAt (s : AdbState Dev) (d : Dev) (q : Queue) (loc : Loc) : Prop where
  list : (s.execList q).count d = if loc = .listed then 1 else 0
  call : s.call d q = .requesting ↔ loc = .requesting
  posting : ∀ b, s.call d q = .posting b → loc = .listed ∨ ∃ w, loc = .work w false
  queue : ∀ w b, loc = .work w b → threadQueue w = q
  work : ∀ w, threadQueue w = q → ∀ b, (s.worker w).window d = some b ↔ loc = .work w b
  running : s.bRunning d q = true ↔ ∃ w, loc = .work w true
  empty : loc = .nowhere → s.cmdList d q = []
  full : loc = .requesting ∨ loc = .listed ∨ (∃ w, loc = .work w false) → s.cmdList d q ≠ []

/-- Where the token is, whatever `_CmdList` has. -/
structure Located (s : AdbState Dev) (d : Dev) (q : Queue) (loc : Loc) : Prop where
  list : (s.execList q).count d = if loc = .listed then 1 else 0
  call : s.call d q = .requesting ↔ loc = .requesting
  posting : ∀ b, s.call d q = .posting b → loc = .listed ∨ ∃ w, loc = .work w false
  queue : ∀ w b, loc = .work w b → threadQueue w = q
  work : ∀ w, threadQueue w = q → ∀ b, (s.worker w).window d = some b ↔ loc = .work w b
  running : s.bRunning d q = true ↔ ∃ w, loc = .work w true
  empty : loc = .nowhere → s.cmdList d q = []

/-- What is on its way to `Execute` has commands. -/
def Fed (s : AdbState Dev) (d : Dev) (q : Queue) : Prop :=
  s.call d q = .requesting ∨ d ∈ s.execList q ∨ (∃ w, threadQueue w = q ∧ (s.worker w).window d = some false) →
    s.cmdList d q ≠ []

theorem TokenAt.located (h : TokenAt s d q loc) : Located s d q loc :=
  ⟨h.list, h.call, h.posting, h.queue, h.work, h.running, h.empty⟩

theorem TokenAt.fed (h : TokenAt s d q loc) : Fed s d q := by
  rintro (hc | hl | ⟨w, hq, hw⟩)
  · exact h.full (.inl (h.call.1 hc))
  · refine h.full (.inr (.inl ?_))
    by_contra hn
    have hcount := h.list
    rw [if_neg hn] at hcount
    exact List.count_eq_zero.1 hcount hl
  · exact h.full (.inr (.inr ⟨w, (h.work w hq false).1 hw⟩))

theorem Located.tokenAt (h : Located s d q loc) (hf : Fed s d q) : TokenAt s d q loc where
  list := h.list
  call := h.call
  posting := h.posting
  queue := h.queue
  work := h.work
  running := h.running
  empty := h.empty
  full := by
    rintro (rfl | rfl | ⟨w, rfl⟩)
    · exact hf (.inl (h.call.2 rfl))
    · refine hf (.inr (.inl (List.count_pos_iff.1 ?_)))
      rw [h.list]
      exact Nat.one_pos
    · exact hf (.inr (.inr ⟨w, h.queue w false rfl, (h.work w (h.queue w false rfl) false).2 rfl⟩))

/-- A step that leaves what a device queue's token is about. -/
theorem Located.congr (h : Located s d q loc) (hl : (s'.execList q).count d = (s.execList q).count d)
    (hc : s'.call d q = s.call d q)
    (hw : ∀ w, threadQueue w = q → (s'.worker w).window d = (s.worker w).window d)
    (hr : s'.bRunning d q = s.bRunning d q) (hm : s'.cmdList d q = s.cmdList d q) : Located s' d q loc where
  list := by rw [hl, h.list]
  call := by rw [hc, h.call]
  posting := by rw [hc]; exact h.posting
  queue := h.queue
  work := fun w hq b => by rw [hw w hq, h.work w hq b]
  running := by rw [hr, h.running]
  empty := by rw [hm]; exact h.empty

/-- The token is with `w`, and no call holds the lock. -/
structure Sole (s : AdbState Dev) (d : Dev) (q : Queue) (w : Thread) : Prop where
  queue : threadQueue w = q
  list : (s.execList q).count d = 0
  call : s.call d q = .none
  others : ∀ w', threadQueue w' = q → w' ≠ w → (s.worker w').window d = none

theorem Located.others {b : Bool} (h : Located s d q (.work w b)) :
    ∀ w', threadQueue w' = q → w' ≠ w → (s.worker w').window d = none := by
  intro w' hq hne
  cases hp : (s.worker w').window d with
  | none => rfl
  | some b' =>
    have := (h.work w' hq b').1 hp
    simp only [Loc.work.injEq] at this
    exact absurd this.1.symm hne

theorem Located.sole {b : Bool} (h : Located s d q (.work w b)) (hc : s.call d q = .none) : Sole s d q w where
  queue := h.queue w b rfl
  list := by rw [h.list]; rfl
  call := hc
  others := h.others

/-- **`Execute`'s loop keeps the token** while it takes records, and gives it up with `_bRunning`. -/
theorem Sole.takeCmd (h : Sole s d q w) (hr : s.bRunning d q = true) : ∃ loc, Located (s.takeCmd w d q) d q loc := by
  unfold AdbState.takeCmd
  cases hm : s.cmdList d q with
  | nil =>
    refine ⟨.nowhere, ?_⟩
    exact {
      list := by simp [setWorker, h.list]
      call := by simp [setWorker, h.call]
      posting := by simp [setWorker, h.call]
      queue := by simp
      work := by
        intro w' hq b
        by_cases hw : w' = w
        · subst hw
          simp [setWorker, WorkPc.window]
        · simp [setWorker, hw, h.others w' hq hw]
      running := by simp
      empty := fun _ => hm }
  | cons r rs =>
    refine ⟨.work w true, ?_⟩
    exact {
      list := by simp [setWorker, h.list]
      call := by simp [setWorker, h.call]
      posting := by simp [setWorker, h.call]
      queue := by
        rintro w' b hw
        simp only [Loc.work.injEq] at hw
        rw [← hw.1]
        exact h.queue
      work := by
        intro w' hq b
        by_cases hw : w' = w
        · subst hw
          cases b <;> simp [setWorker, WorkPc.window]
        · simp [setWorker, hw, h.others w' hq hw, Ne.symm hw]
      running := by simp [setWorker, hr]
      empty := by simp }

/-- A device queue other than the one `Execute`'s loop is at. -/
theorem Located.takeCmd_other (h : Located s d q loc) {r : WorkPc Dev} (hw : s.worker w = r)
    (hr : ∀ d', d' ≠ d₀ → r.window d' = none) (hne : ¬ (d = d₀ ∧ q = threadQueue w)) :
    Located (s.takeCmd w d₀ (threadQueue w)) d q loc := by
  have hwin : ∀ pc : WorkPc Dev, (∀ d', d' ≠ d₀ → pc.window d' = none) →
      threadQueue w ≠ q ∨ pc.window d = (s.worker w).window d := by
    intro pc hpc
    by_cases hd : d = d₀
    · exact .inl fun hq => hne ⟨hd, hq.symm⟩
    · exact .inr (by rw [hpc d hd, hw, hr d hd])
  have hwindow : ∀ d', d' ≠ d₀ → ∀ r, (WorkPc.executeOne d₀ r).window d' = none := by
    intro d' hd r
    simp [WorkPc.window, Ne.symm hd]
  unfold AdbState.takeCmd
  cases hm : s.cmdList d₀ (threadQueue w) with
  | nil =>
    exact h.congr rfl rfl (part_setWorker (WorkPc.window d) (hwin _ fun _ _ => rfl)) (upd₂_of_ne _ _ _ _ hne) rfl
  | cons r rs =>
    exact h.congr rfl rfl (part_setWorker (WorkPc.window d) (hwin _ fun d' hd => hwindow d' hd r)) rfl
      (upd₂_of_ne _ _ _ _ hne)

/-- Every device queue's token is somewhere. -/
def Locations (s : AdbState Dev) : Prop := ∀ d q, ∃ loc, Located s d q loc

def Tokens (s : AdbState Dev) : Prop := ∀ d q, ∃ loc, TokenAt s d q loc

/-- A `QueueCmd` that calls `Request` finds nobody on its device queue, nor on the way to it. -/
def Exclusive (s : AdbState Dev) : AdbStep Dev → Prop
  | .queueCmd d _ cmdCode _ =>
    s.cmdList d (adbCmdQueueMap cmdCode) = [] ∧ s.bRunning d (adbCmdQueueMap cmdCode) = false →
      d ∉ s.execList (adbCmdQueueMap cmdCode) ∧
        ∀ w, threadQueue w = adbCmdQueueMap cmdCode → s.worker w ≠ .popped d
  | _ => True

theorem Tokens.locations (h : Tokens s) : Locations s := fun d q => (h d q).imp fun _ ht => ht.located

theorem popped_of_window {pc : WorkPc Dev} (h : pc.window d = some false) : pc = .popped d := by
  cases pc <;> simp_all [WorkPc.window]

theorem Locations.queueCmd (h : Locations s) {dwCmdIdx : Nat} {cmdCode : DevCmdCode} {pObserver : CmdObserver}
    (hc : s.call d₀ q₀ = .none) (hx : s.cmdList d₀ q₀ = [] ∧ s.bRunning d₀ q₀ = false →
      d₀ ∉ s.execList q₀ ∧ ∀ w, threadQueue w = q₀ → s.worker w ≠ .popped d₀) :
    Locations (s.queueCmd d₀ q₀ dwCmdIdx cmdCode pObserver) := by
  intro d q
  obtain ⟨loc, ht⟩ := h d q
  by_cases hne : d = d₀ ∧ q = q₀
  · obtain ⟨rfl, rfl⟩ := hne
    have hcall : loc ≠ .requesting := by
      rw [Ne, ← ht.call, hc]
      simp
    by_cases hedge : s.cmdList d q = [] ∧ s.bRunning d q = false
    · -- the edge: nobody has the token
      have hloc : loc = .nowhere := by
        cases loc with
        | nowhere => rfl
        | requesting => exact absurd rfl hcall
        | listed =>
          have hcount := ht.list
          rw [if_pos rfl, List.count_eq_zero.2 (hx hedge).1] at hcount
          cases hcount
        | work w b =>
          cases b with
          | false =>
            have hq := ht.queue w false rfl
            exact absurd (popped_of_window ((ht.work w hq false).2 rfl)) ((hx hedge).2 w hq)
          | true =>
            have := ht.running.2 ⟨w, rfl⟩
            rw [hedge.2] at this
            cases this
      subst hloc
      refine ⟨.requesting, ?_⟩
      exact {
        list := by simpa [AdbState.queueCmd] using ht.list
        call := by simp [AdbState.queueCmd, hedge]
        posting := by simp [AdbState.queueCmd, hedge]
        queue := by simp
        work := by
          intro w hq b
          simpa [AdbState.queueCmd] using ht.work w hq b
        running := by simpa [AdbState.queueCmd] using ht.running
        empty := by simp }
    · have hpc : (s.queueCmd d q dwCmdIdx cmdCode pObserver).call d q = .none := by
        have : ¬ (s.cmdList d q = [] ∧ s.bRunning d q = false) := hedge
        simpa [AdbState.queueCmd] using this
      have hsome : loc ≠ .nowhere := by
        rintro rfl
        refine hedge ⟨ht.empty rfl, ?_⟩
        rw [← Bool.not_eq_true, ht.running]
        simp
      refine ⟨loc, ?_⟩
      exact {
        list := ht.list
        call := by rw [hpc]; simpa using hcall
        posting := by rw [hpc]; simp
        queue := ht.queue
        work := ht.work
        running := ht.running
        empty := fun hn => absurd hn hsome }
  · exact ⟨loc, ht.congr rfl (upd₂_of_ne _ _ _ _ hne) (fun _ _ => rfl) rfl (upd₂_of_ne _ _ _ _ hne)⟩

/-- **`Request` never finds its device in the list.** -/
theorem Located.request_fresh (h : Located s d q loc) (hc : s.call d q = .requesting) : d ∉ s.execList q := by
  obtain rfl := h.call.1 hc
  exact List.count_eq_zero.1 h.list

theorem Locations.request (h : Locations s) (hc : s.call d₀ q₀ = .requesting) : Locations (s.request d₀ q₀) := by
  obtain ⟨loc₀, h₀⟩ := h d₀ q₀
  have hnot := h₀.request_fresh hc
  obtain rfl := h₀.call.1 hc
  unfold AdbState.request
  rw [if_neg hnot]
  intro d q
  by_cases hne : d = d₀ ∧ q = q₀
  · obtain ⟨rfl, rfl⟩ := hne
    refine ⟨.listed, ?_⟩
    exact {
      list := by simp [List.count_eq_zero.2 hnot]
      call := by simp [setCall, AdbState.addRef]
      posting := fun _ _ => .inl rfl
      queue := by simp
      work := by
        intro w hq b
        simpa [setCall, AdbState.addRef] using h₀.work w hq b
      running := by simpa [setCall, AdbState.addRef] using h₀.running
      empty := by simp }
  · obtain ⟨loc, ht⟩ := h d q
    refine ⟨loc, ht.congr ?_ (upd₂_of_ne _ _ _ _ hne) (fun _ _ => rfl) rfl rfl⟩
    show (Function.update s.execList q₀ (s.execList q₀ ++ [d₀]) q).count d = _
    by_cases hq : q = q₀
    · subst hq
      have hd : d₀ ≠ d := fun hd => hne ⟨hd.symm, rfl⟩
      rw [Function.update_self, List.count_append, List.count_singleton]
      simp [hd]
    · rw [Function.update_of_ne hq]

theorem Locations.test (h : Locations s) {ds : List Dev} (hw : s.worker w = .testing)
    (hl : s.execList (threadQueue w) = d₀ :: ds) : Locations { s.setWorker w (.popped d₀) with
      execList := Function.update s.execList (threadQueue w) ds } := by
  intro d q
  obtain ⟨loc, ht⟩ := h d q
  by_cases hne : d = d₀ ∧ q = threadQueue w
  · obtain ⟨rfl, rfl⟩ := hne
    have hloc : loc = .listed := by
      have hcount := ht.list
      rw [hl, List.count_cons_self] at hcount
      by_contra hn
      rw [if_neg hn] at hcount
      cases hcount
    subst hloc
    have hds : ds.count d = 0 := by
      have hcount := ht.list
      rw [hl, List.count_cons_self, if_pos rfl] at hcount
      exact Nat.succ.inj hcount
    refine ⟨.work w false, ?_⟩
    exact {
      list := by simp [hds]
      call := by simpa [setWorker] using ht.call
      posting := fun _ _ => .inr ⟨w, rfl⟩
      queue := by
        rintro w' b hw'
        simp only [Loc.work.injEq] at hw'
        rw [← hw'.1]
      work := by
        intro w' hq b
        by_cases hww : w' = w
        · subst hww
          cases b <;> simp [setWorker, WorkPc.window]
        · have hnone := ht.work w' hq b
          simp only [reduceCtorEq, iff_false] at hnone
          simp [setWorker, hww, hnone, Ne.symm hww]
      running := by simpa [setWorker] using ht.running
      empty := by simp }
  · refine ⟨loc, ht.congr ?_ rfl (part_setWorker (WorkPc.window d) ?_) rfl rfl⟩
    · show (Function.update s.execList (threadQueue w) ds q).count d = _
      by_cases hq : q = threadQueue w
      · subst hq
        have hd : d₀ ≠ d := fun hd => hne ⟨hd.symm, rfl⟩
        rw [Function.update_self, hl, List.count_cons_of_ne hd]
      · rw [Function.update_of_ne hq]
    · by_cases hd : d = d₀
      · exact .inl fun hq => hne ⟨hd, hq.symm⟩
      · exact .inr (by simp [hw, WorkPc.window, Ne.symm hd])

theorem Locations.post (h : Locations s) {b : Bool} (hc : s.call d₀ q₀ = .posting b) :
    Locations (s.setCall d₀ q₀ .none) := by
  intro d q
  obtain ⟨loc, ht⟩ := h d q
  by_cases hne : d = d₀ ∧ q = q₀
  · obtain ⟨rfl, rfl⟩ := hne
    have hcall : loc ≠ .requesting := by
      rw [Ne, ← ht.call, hc]
      simp
    refine ⟨loc, { ht with call := ?_, posting := ?_ }⟩
    · simpa [setCall] using hcall
    · simp [setCall]
  · exact ⟨loc, ht.congr rfl (upd₂_of_ne _ _ _ _ hne) (fun _ _ => rfl) rfl rfl⟩

/-- A thread's move that keeps its part in every device queue. -/
theorem Locations.setWorker (h : Locations s) (pc : WorkPc Dev) (hpc : ∀ d, pc.window d = (s.worker w).window d) :
    Locations (s.setWorker w pc) := by
  intro d q
  obtain ⟨loc, ht⟩ := h d q
  exact ⟨loc, ht.congr rfl rfl (part_setWorker (WorkPc.window d) (.inr (hpc d))) rfl rfl⟩

/-- A thread at the test of `Execute`'s loop; the other device queues' tokens are somewhere. -/
theorem tokens_takeCmd {r : WorkPc Dev} (hw : s.worker w = r) (hr : ∀ d, d ≠ d₀ → r.window d = none)
    (hsole : Sole s d₀ (threadQueue w) w) (hrun : s.bRunning d₀ (threadQueue w) = true)
    (hother : ∀ d q, ¬ (d = d₀ ∧ q = threadQueue w) → ∃ loc, Located s d q loc) :
    Locations (s.takeCmd w d₀ (threadQueue w)) := by
  intro d q
  by_cases hne : d = d₀ ∧ q = threadQueue w
  · obtain ⟨rfl, rfl⟩ := hne
    exact hsole.takeCmd hrun
  · obtain ⟨loc, ht⟩ := hother d q hne
    exact ⟨loc, ht.takeCmd_other hw hr hne⟩

/-- A thread with a part in a device queue has its token. -/
theorem Locations.work (h : Locations s) {b : Bool} (hw : (s.worker w).window d = some b) :
    Located s d (threadQueue w) (.work w b) := by
  obtain ⟨loc, ht⟩ := h d (threadQueue w)
  obtain rfl := (ht.work w rfl b).1 hw
  exact ht

theorem Locations.popped (h : Locations s) (hw : s.worker w = .popped d) :
    Located s d (threadQueue w) (.work w false) := by
  apply h.work
  rw [hw]
  simp [WorkPc.window]

theorem Locations.next (h : Locations s) (hw : s.worker w = .next d) :
    Located s d (threadQueue w) (.work w true) := by
  apply h.work
  rw [hw]
  simp [WorkPc.window]

/-- **Every step keeps the tokens in one place**, but for a `QueueCmd` that asks for what somebody has. -/
theorem Locations.step {publicFlush : Bool} {a : AdbStep Dev} (h : Locations s)
    (hs : AdbState.step publicFlush s a = some s') (hx : Exclusive s a) : Locations s' := by
  cases act_some hs with
  | queueCmd _ hc => exact h.queueCmd hc hx
  | request hc => exact h.request hc
  | post hc => exact fun d' q' => (h.post hc d' q').imp fun _ ht => ht.congr rfl rfl (fun _ _ => rfl) rfl rfl
  | @flush d q r rs _ _ hm =>
    intro d' q'
    obtain ⟨loc, ht⟩ := h d' q'
    refine ⟨loc, { ht with empty := fun hn => ?_ }⟩
    have hne : ¬ (d' = d ∧ q' = q) := by
      rintro ⟨rfl, rfl⟩
      cases hm.symm.trans (ht.empty hn)
    exact (upd₂_of_ne _ _ _ _ hne).trans (ht.empty hn)
  | loopTest hw =>
    refine h.setWorker _ fun d => ?_
    rw [hw]
    split <;> rfl
  | wait hw _ =>
    exact fun d q => (h.setWorker .testing (fun d => by rw [hw]; rfl) d q).imp fun _ ht =>
      ht.congr rfl rfl (fun _ _ => rfl) rfl rfl
  | testEmpty hw _ => exact h.setWorker .loopTest fun d => by rw [hw]; rfl
  | testPop hw hl => exact h.test hw hl
  | @begin w d hw hc =>
    have hsole := (h.popped hw).sole hc
    refine tokens_takeCmd (s := s.setRunning d (threadQueue w)) hw (fun d' hd => by simp [WorkPc.window, Ne.symm hd])
      ⟨rfl, hsole.list, hsole.call, hsole.others⟩ (upd₂_self ..) fun d' q hne => ?_
    exact (h d' q).imp fun _ ht => ht.congr rfl rfl (fun _ _ => rfl) (upd₂_of_ne _ _ _ _ hne) rfl
  | @cancel w d r hw _ =>
    exact fun d' q => (h.setWorker (.next d) (fun d' => by rw [hw]; rfl) d' q).imp fun _ ht =>
      ht.congr rfl rfl (fun _ _ => rfl) rfl rfl
  | @execute w d r hw _ =>
    exact fun d' q => (h.setWorker (.executing d r) (fun d' => by rw [hw]; rfl) d' q).imp fun _ ht =>
      ht.congr rfl rfl (fun _ _ => rfl) rfl rfl
  | @finish w dwRet d r hw =>
    exact fun d' q => (h.setWorker (.next d) (fun d' => by rw [hw]; rfl) d' q).imp fun _ ht =>
      ht.congr rfl rfl (fun _ _ => rfl) rfl rfl
  | @next w d hw hc =>
    have ht := h.next hw
    exact tokens_takeCmd hw (fun d' hd => by simp [WorkPc.window, Ne.symm hd]) (ht.sole hc) (ht.running.2 ⟨w, rfl⟩)
      fun d' q _ => h d' q
  | releaseDev hw =>
    exact fun d' q => (h.setWorker .testing (fun d' => by rw [hw]; rfl) d' q).imp fun _ ht =>
      ht.congr rfl rfl (fun _ _ => rfl) rfl rfl
  | _ => exact fun d q => (h d q).imp fun _ ht => ht.congr rfl rfl (fun _ _ => rfl) rfl rfl

/-! ## Runs in which no `FlushCmds` finds a command -/

theorem Fed.congr (h : Fed s d q) (hc : s'.call d q = .requesting → s.call d q = .requesting)
    (hl : d ∈ s'.execList q → d ∈ s.execList q)
    (hw : ∀ w, threadQueue w = q → (s'.worker w).window d = some false → (s.worker w).window d = some false)
    (hm : s'.cmdList d q = s.cmdList d q) : Fed s' d q := by
  rw [Fed, hm]
  rintro (hcall | hlist | ⟨w, hq, hwin⟩)
  · exact h (.inl (hc hcall))
  · exact h (.inr (.inl (hl hlist)))
  · exact h (.inr (.inr ⟨w, hq, hw w hq hwin⟩))

/-- A thread moves, and not to `Execute`'s door. -/
theorem popped_setWorker {pc : WorkPc Dev} (hpc : pc.window d ≠ some false) :
    ∀ w', threadQueue w' = q → ((s.setWorker w pc).worker w').window d = some false →
      (s.worker w').window d = some false := by
  intro w' _ hw'
  by_cases hww : w' = w
  · subst hww
    rw [setWorker_self] at hw'
    exact absurd hw' hpc
  · rwa [setWorker_of_ne s pc hww] at hw'

theorem Sole.fed_takeCmd (h : Sole s d q w) : Fed (s.takeCmd w d q) d q := by
  have hlist : d ∉ s.execList q := List.count_eq_zero.1 h.list
  have hpc : ∀ pc : WorkPc Dev, pc.window d ≠ some false → ∀ w', threadQueue w' = q →
      ((s.setWorker w pc).worker w').window d ≠ some false := by
    intro pc hpc w' hq hw'
    have hold := popped_setWorker hpc w' hq hw'
    by_cases hww : w' = w
    · subst hww
      rw [setWorker_self] at hw'
      exact hpc hw'
    · rw [h.others w' hq hww] at hold
      cases hold
  unfold AdbState.takeCmd
  cases s.cmdList d q with
  | nil =>
    rintro (hc | hl | ⟨w', hq, hw'⟩)
    · cases h.call.symm.trans hc
    · exact absurd hl hlist
    · exact absurd hw' (hpc (.releasing d) (by simp [WorkPc.window]) w' hq)
  | cons r rs =>
    rintro (hc | hl | ⟨w', hq, hw'⟩)
    · cases h.call.symm.trans hc
    · exact absurd hl hlist
    · exact absurd hw' (hpc (.executeOne d r) (by simp [WorkPc.window]) w' hq)

theorem Fed.takeCmd_other (h : Fed s d q) (hne : ¬ (d = d₀ ∧ q = threadQueue w)) :
    Fed (s.takeCmd w d₀ (threadQueue w)) d q := by
  unfold AdbState.takeCmd
  cases s.cmdList d₀ (threadQueue w) with
  | nil => exact h.congr id id (popped_setWorker (by simp [WorkPc.window])) rfl
  | cons r rs =>
    exact h.congr id id (popped_setWorker (by simp only [WorkPc.window]; split <;> simp)) (upd₂_of_ne _ _ _ _ hne)

theorem Fed.step {publicFlush : Bool} {a : AdbStep Dev} (h : Fed s d q) (hl : Locations s)
    (hs : AdbState.step publicFlush s a = some s') (hf : ∀ d q, a = .flush d q → s.cmdList d q = []) : Fed s' d q := by
  cases act_some hs with
  | @queueCmd d₀ dwCmdIdx cmdCode pObserver _ _ =>
    by_cases hne : d = d₀ ∧ q = adbCmdQueueMap cmdCode
    · obtain ⟨rfl, rfl⟩ := hne
      exact fun _ => by simp [AdbState.queueCmd]
    · exact h.congr (fun hc => (upd₂_of_ne _ _ _ _ hne).symm.trans hc) id (fun _ _ => id) (upd₂_of_ne _ _ _ _ hne)
  | @request d₀ q₀ hg =>
    have hcall : ∀ pc : CallPc, pc ≠ .requesting → upd₂ s.call d₀ q₀ pc d q = .requesting →
        s.call d q = .requesting := by
      intro pc hpc hc
      by_cases hne : d = d₀ ∧ q = q₀
      · rw [hne.1, hne.2, upd₂_self] at hc
        exact absurd hc hpc
      · exact (upd₂_of_ne _ _ _ _ hne).symm.trans hc
    unfold AdbState.request
    split
    · exact h.congr (hcall .none fun hn => by cases hn) id (fun _ _ => id) rfl
    · by_cases hne : d = d₀ ∧ q = q₀
      · obtain ⟨rfl, rfl⟩ := hne
        exact fun _ => h (.inl hg)
      · refine h.congr (hcall _ fun hn => by cases hn) (fun hmem => ?_) (fun _ _ => id) rfl
        have hmem' : d ∈ Function.update s.execList q₀ (s.execList q₀ ++ [d₀]) q := hmem
        by_cases hq : q = q₀
        · subst hq
          rw [Function.update_self] at hmem'
          exact (List.mem_append.1 hmem').resolve_right fun hd => hne ⟨List.mem_singleton.1 hd, rfl⟩
        · rwa [Function.update_of_ne hq] at hmem'
  | @post d₀ q₀ b _ =>
    refine h.congr (fun hc => ?_) id (fun _ _ => id) rfl
    have hc' : upd₂ s.call d₀ q₀ .none d q = .requesting := hc
    by_cases hne : d = d₀ ∧ q = q₀
    · rw [hne.1, hne.2, upd₂_self] at hc'
      cases hc'
    · exact (upd₂_of_ne _ _ _ _ hne).symm.trans hc'
  | flush _ _ hm => cases hm.symm.trans (hf _ _ rfl)
  | @testPop w d₀ ds _ hlist =>
    by_cases hne : d = d₀ ∧ q = threadQueue w
    · obtain ⟨rfl, rfl⟩ := hne
      exact fun _ => h (.inr (.inl (by rw [hlist]; exact List.mem_cons_self)))
    · refine h.congr id (fun hmem => ?_) (fun w' hq hw' => ?_) rfl
      · have hmem' : d ∈ Function.update s.execList (threadQueue w) ds q := hmem
        by_cases hq : q = threadQueue w
        · subst hq
          rw [Function.update_self] at hmem'
          rw [hlist]
          exact List.mem_cons_of_mem _ hmem'
        · rwa [Function.update_of_ne hq] at hmem'
      · have hw'' : ((s.setWorker w (.popped d₀)).worker w').window d = some false := hw'
        by_cases hww : w' = w
        · subst hww
          rw [setWorker_self] at hw''
          have hd : d ≠ d₀ := fun hd => hne ⟨hd, hq.symm⟩
          simp [WorkPc.window, Ne.symm hd] at hw''
        · rwa [setWorker_of_ne s _ hww] at hw''
  | @begin w d₀ hw hc =>
    by_cases hne : d = d₀ ∧ q = threadQueue w
    · obtain ⟨rfl, rfl⟩ := hne
      have hsole := (hl.popped hw).sole hc
      exact Sole.fed_takeCmd (s := s.setRunning d (threadQueue w)) ⟨rfl, hsole.list, hsole.call, hsole.others⟩
    · have h' : Fed (s.setRunning d₀ (threadQueue w)) d q := h
      exact h'.takeCmd_other hne
  | @next w d₀ hw hc =>
    by_cases hne : d = d₀ ∧ q = threadQueue w
    · obtain ⟨rfl, rfl⟩ := hne
      exact ((hl.next hw).sole hc).fed_takeCmd
    · exact h.takeCmd_other hne
  | loopTest _ => exact h.congr id id (popped_setWorker (by split <;> simp [WorkPc.window])) rfl
  | wait _ _ =>
    have hpc : (WorkPc.testing : WorkPc Dev).window d ≠ some false := by simp [WorkPc.window]
    exact h.congr id id (popped_setWorker hpc) rfl
  | testEmpty _ _ | releaseDev _ => exact h.congr id id (popped_setWorker (by simp [WorkPc.window])) rfl
  | cancel _ _ | execute _ _ | finish _ =>
    exact h.congr id id (popped_setWorker (by simp only [WorkPc.window]; split <;> simp)) rfl
  | _ => exact h.congr id id (fun _ _ => id) rfl

/-- **Every step keeps the tokens**, but for a `FlushCmds` that finds a command. -/
theorem Tokens.step {publicFlush : Bool} {a : AdbStep Dev} (h : Tokens s) (hs : AdbState.step publicFlush s a = some s')
    (hf : ∀ d q, a = .flush d q → s.cmdList d q = []) : Tokens s' := by
  have hfed : ∀ d q, Fed s d q := fun d q => (h d q).elim fun _ ht => ht.fed
  have hx : Exclusive s a := by
    cases a with
    | queueCmd d dwCmdIdx cmdCode pObserver =>
      rintro ⟨hm, -⟩
      refine ⟨fun hd => hfed d _ (.inr (.inl hd)) hm, fun w hq hw => hfed d _ (.inr (.inr ⟨w, hq, ?_⟩)) hm⟩
      rw [hw]
      exact if_pos rfl
    | _ => trivial
  intro d q
  obtain ⟨loc, ht⟩ := h.locations.step hs hx d q
  exact ⟨loc, ht.tokenAt ((hfed d q).step h.locations hs hf)⟩

end AdbState

end DevMgr
