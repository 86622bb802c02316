import DevMgr.AdbRefs
/-!
# AdbServe — commands, observers and wakeups of the device queues

With the token in one place, the records of a device queue are served one at a time and in order (`Served`), and every
observer hears of its record once.  A list `_ExecList[q]` that is not empty has a post to come, a positive semaphore or
a thread awake (`Awake`).
-/
namespace DevMgr

open Machines

/-- The record a thread has in `ExecuteOne` for `d`, and whether `OnExecuting` was called. -/
def WorkPc.current {Dev : Type} [DecidableEq Dev] (d : Dev) : WorkPc Dev → Option (CmdRec × Bool)
  | .executeOne d' r => if d' = d then some (r, false) else none
  | .executing d' r => if d' = d then some (r, true) else none
  | _ => none

/-- The thread tests its list before it next blocks. -/
def WorkPc.awake {Dev : Type} : WorkPc Dev → Bool
  | .loopTest | .waiting | .left => false
  | _ => true

theorem current_of_window {Dev : Type} [DecidableEq Dev] {d : Dev} {pc : WorkPc Dev} (h : pc.window d = none) :
    pc.current d = none := by
  cases pc <;> simp_all [WorkPc.window, WorkPc.current]

/-- What an observer is called with for one record: `OnCancelled`, or `OnExecuting` and then
`OnExecuted` or `OnFailed`. -/
def Complete (es : List CmdEvent) : Prop :=
  es = [.onCancelled] ∨ es = [.onExecuting, .onExecuted] ∨ ∃ dwReason, es = [.onExecuting, .onFailed dwReason]

/-- What it was called with before its record is done. -/
def begunEvents (executing : Bool) : List CmdEvent := if executing then [.onExecuting] else []

namespace AdbState

variable {Dev : Type} [DecidableEq Dev] {s s' : AdbState Dev} {d d₀ : Dev} {q q₀ : Queue} {w : Thread}

/-- The records of a device queue are given to `ExecuteOne` in order, and the observers of those given are called as
they should be: all but those of the record a thread still has were called to the end. -/
structure Served (s : AdbState Dev) (d : Dev) (q : Queue) : Prop where
  order : s.queued d q = s.executed d q ++ s.cmdList d q
  numbered : (s.queued d q).map CmdRec.pRec = List.range (s.queued d q).length
  fresh : ∀ n, (s.executed d q).length ≤ n → s.events d q n = []
  now : ∀ w, threadQueue w = q → ∀ r b, (s.worker w).current d = some (r, b) →
    r ∈ s.executed d q ∧ s.events d q r.pRec = begunEvents b
  done : ∀ n, n < (s.executed d q).length → Complete (s.events d q n) ∨
    ∃ w r b, threadQueue w = q ∧ (s.worker w).current d = some (r, b) ∧ r.pRec = n

theorem Served.congr (h : Served s d q) (h1 : s'.queued d q = s.queued d q) (h2 : s'.executed d q = s.executed d q)
    (h3 : s'.cmdList d q = s.cmdList d q) (h4 : s'.events d q = s.events d q)
    (h5 : ∀ w, threadQueue w = q → (s'.worker w).current d = (s.worker w).current d) : Served s' d q where
  order := by rw [h1, h2, h3, h.order]
  numbered := by rw [h1, h.numbered]
  fresh := by rw [h2, h4]; exact h.fresh
  now := by
    intro w hq r b hw
    rw [h5 w hq] at hw
    rw [h2, h4]
    exact h.now w hq r b hw
  done := by
    rw [h2, h4]
    intro n hn
    refine (h.done n hn).imp_right ?_
    rintro ⟨w, r, b, hq, hw, hr⟩
    exact ⟨w, r, b, hq, by rw [h5 w hq, hw], hr⟩

theorem Served.executed_numbered (h : Served s d q) :
    (s.executed d q).map CmdRec.pRec = List.range (s.executed d q).length := by
  have hn := congrArg (List.take (s.executed d q).length) h.numbered
  rw [h.order, List.map_append, List.take_left' (List.length_map ..), List.take_range] at hn
  rw [hn, List.length_append, Nat.min_eq_left (Nat.le_add_right ..)]

theorem Served.pRec_lt (h : Served s d q) {r : CmdRec} (hr : r ∈ s.executed d q) :
    r.pRec < (s.executed d q).length := by
  have := List.mem_map_of_mem (f := CmdRec.pRec) hr
  rw [h.executed_numbered] at this
  exact List.mem_range.1 this

theorem Served.nodup (h : Served s d q) : ((s.queued d q).map CmdRec.pRec).Nodup := by
  rw [h.numbered]
  exact List.nodup_range

theorem Served.pRec_inj (h : Served s d q) {r r' : CmdRec} (hr : r ∈ s.executed d q) (hr' : r' ∈ s.executed d q)
    (he : r.pRec = r'.pRec) : r = r' := by
  refine List.inj_on_of_nodup_map h.nodup ?_ ?_ he
  · rw [h.order]
    exact List.mem_append_left _ hr
  · rw [h.order]
    exact List.mem_append_left _ hr'

/-- A step that changes nothing of the records and moves a thread outside `ExecuteOne`. -/
theorem Served.move (h : Served s d q) (pc : WorkPc Dev) (hpc : pc.current d = (s.worker w).current d) :
    Served (s.setWorker w pc) d q :=
  h.congr rfl rfl rfl rfl (part_setWorker (WorkPc.current d) (.inr hpc))

theorem Served.queueCmd (h : Served s d q) {dwCmdIdx : Nat} {cmdCode : DevCmdCode}
    {pObserver : CmdObserver} :
    Served (s.queueCmd d₀ q₀ dwCmdIdx cmdCode pObserver) d q := by
  by_cases hne : d = d₀ ∧ q = q₀
  · obtain ⟨rfl, rfl⟩ := hne
    refine ⟨?_, ?_, h.fresh, h.now, h.done⟩
    · simp [AdbState.queueCmd, h.order]
    · simp [AdbState.queueCmd, h.numbered, List.range_succ]
  · exact h.congr (upd₂_of_ne _ _ _ _ hne) rfl (upd₂_of_ne _ _ _ _ hne) rfl (fun _ _ => rfl)

/-- The number of the record a thread takes next. -/
theorem Served.next_pRec (h : Served s d q) {r : CmdRec} {rs : List CmdRec} (hm : s.cmdList d q = r :: rs) :
    r.pRec = (s.executed d q).length := by
  have hn := congrArg (fun l => l[(s.executed d q).length]?) h.numbered
  simp only [h.order, hm] at hn
  simpa [List.getElem?_append_right] using hn

theorem Served.takeCmd (h : Served s d q) {pc : WorkPc Dev} (hw : s.worker w = pc) (hpc : ∀ d, pc.current d = none) :
    Served (s.takeCmd w d₀ (threadQueue w)) d q := by
  unfold AdbState.takeCmd
  cases hm : s.cmdList d₀ (threadQueue w) with
  | nil => exact h.congr rfl rfl rfl rfl (part_setWorker (WorkPc.current d) (.inr (by rw [hw, hpc]; rfl)))
  | cons r rs =>
    by_cases hne : d = d₀ ∧ q = threadQueue w
    · obtain ⟨rfl, rfl⟩ := hne
      have hr := h.next_pRec hm
      have hlen : ((s.executed d (threadQueue w)) ++ [r]).length = (s.executed d (threadQueue w)).length + 1 := by simp
      exact {
        order := by simp [setWorker, h.order, hm]
        numbered := h.numbered
        fresh := by
          intro n hn
          simp only [upd₂_self, hlen] at hn
          exact h.fresh n (by omega)
        now := by
          intro w' hq r' b' hw'
          simp only [upd₂_self]
          by_cases hww : w' = w
          · subst hww
            have : some (r, false) = some (r', b') := by simpa [setWorker, WorkPc.current] using hw'
            obtain ⟨rfl, rfl⟩ := Prod.mk.inj (Option.some.inj this)
            exact ⟨List.mem_append_right _ List.mem_cons_self, h.fresh _ (by omega)⟩
          · have hold := h.now w' hq r' b' (by simpa [setWorker, hww] using hw')
            exact ⟨List.mem_append_left _ hold.1, hold.2⟩
        done := by
          intro n hn
          simp only [upd₂_self, hlen] at hn
          by_cases hlast : n = (s.executed d (threadQueue w)).length
          · refine .inr ⟨w, r, false, rfl, ?_, by omega⟩
            simp [setWorker, WorkPc.current]
          · refine (h.done n (by omega)).imp_right ?_
            rintro ⟨w', r', b', hq, hw', hr'⟩
            have hww : w' ≠ w := by
              rintro rfl
              rw [hw, hpc] at hw'
              cases hw'
            exact ⟨w', r', b', hq, by simpa [setWorker, hww] using hw', hr'⟩ }
    · refine h.congr rfl (upd₂_of_ne _ _ _ _ hne) (upd₂_of_ne _ _ _ _ hne) rfl (part_setWorker (WorkPc.current d) ?_)
      by_cases hd : d = d₀
      · exact .inl fun hq => hne ⟨hd, hq.symm⟩
      · exact .inr (by rw [hw, hpc]; simp [WorkPc.current, Ne.symm hd])

/-- **A call of an observer** by the thread that has its record. -/
theorem Served.event (h : Served s d q) {pc : WorkPc Dev} {r : CmdRec} {b : Bool} {e : CmdEvent}
    (hsole : ∀ w', threadQueue w' = threadQueue w → w' ≠ w → (s.worker w').current d₀ = none)
    (hw : ∀ d, (s.worker w).current d = if d₀ = d then some (r, b) else none) (hpc : ∀ d, d₀ ≠ d → pc.current d = none)
    (hend : (pc.current d₀ = none ∧ Complete (begunEvents b ++ [e])) ∨
      (pc.current d₀ = some (r, true) ∧ begunEvents b ++ [e] = begunEvents true)) :
    Served ((s.event d₀ (threadQueue w) r e).setWorker w pc) d q := by
  by_cases hne : d = d₀ ∧ q = threadQueue w
  · obtain ⟨rfl, rfl⟩ := hne
    obtain ⟨hmem, hev⟩ := h.now w rfl r b (by rw [hw, if_pos rfl])
    have hlt := h.pRec_lt hmem
    have hnew : ∀ n, ((s.event d (threadQueue w) r e).setWorker w pc).events d (threadQueue w) n =
        if n = r.pRec then begunEvents b ++ [e] else s.events d (threadQueue w) n := by
      intro n
      by_cases hn : n = r.pRec
      · subst hn
        simp [setWorker, AdbState.event, hev]
      · simp [setWorker, AdbState.event, hn]
    exact {
      order := h.order
      numbered := h.numbered
      fresh := by
        intro n hn
        have hn' : (s.executed d (threadQueue w)).length ≤ n := hn
        rw [hnew, if_neg (by omega)]
        exact h.fresh n hn'
      now := by
        intro w' hq r' b' hw'
        rw [hnew]
        by_cases hww : w' = w
        · subst hww
          rw [setWorker_self] at hw'
          rcases hend with ⟨hp, -⟩ | ⟨hp, he⟩
          · rw [hp] at hw'
            cases hw'
          · rw [hp] at hw'
            obtain ⟨rfl, rfl⟩ := Prod.mk.inj (Option.some.inj hw')
            rw [if_pos rfl]
            exact ⟨hmem, he⟩
        · rw [setWorker_of_ne _ _ hww] at hw'
          rw [show (s.event d (threadQueue w) r e).worker w' = s.worker w' from rfl, hsole w' hq hww] at hw'
          cases hw'
      done := by
        intro n hn
        rw [hnew]
        by_cases hnr : n = r.pRec
        · rw [if_pos hnr]
          refine hend.imp And.right fun hp => ⟨w, r, true, rfl, ?_, hnr.symm⟩
          rw [setWorker_self, hp.1]
        · rw [if_neg hnr]
          refine .inl ((h.done n hn).resolve_right ?_)
          rintro ⟨w', r', b', hq, hw', hr'⟩
          by_cases hww : w' = w
          · subst hww
            rw [hw, if_pos rfl] at hw'
            obtain ⟨rfl, rfl⟩ := Prod.mk.inj (Option.some.inj hw')
            exact hnr hr'.symm
          · rw [hsole w' hq hww] at hw'
            cases hw' }
  · refine h.congr rfl rfl rfl ?_ (part_setWorker (WorkPc.current d) (s := s.event d₀ (threadQueue w) r e) ?_)
    · exact upd₂_of_ne _ _ _ _ hne
    · by_cases hd : d = d₀
      · exact .inl fun hq => hne ⟨hd, hq.symm⟩
      · refine .inr ?_
        rw [hpc d (Ne.symm hd), show (s.event d₀ (threadQueue w) r e).worker w = s.worker w from rfl, hw,
          if_neg (Ne.symm hd)]

/-- **Every step serves the device queues in order**, but for a `FlushCmds` that finds a command. -/
theorem Served.step {publicFlush : Bool} {a : AdbStep Dev} (h : Served s d q) (ht : Tokens s)
    (hs : AdbState.step publicFlush s a = some s') (hf : ∀ d q, a = .flush d q → s.cmdList d q = []) :
    Served s' d q := by
  have hothers : ∀ {w d₀}, (s.worker w).window d₀ = some true →
      ∀ w', threadQueue w' = threadQueue w → w' ≠ w → (s.worker w').current d₀ = none :=
    fun hw w' hq hne => current_of_window ((ht.locations.work hw).others w' hq hne)
  cases act_some hs with
  | queueCmd _ _ => exact h.queueCmd
  | request _ =>
    unfold AdbState.request
    split
    · exact h.congr rfl rfl rfl rfl fun _ _ => rfl
    · exact h.congr rfl rfl rfl rfl fun _ _ => rfl
  | flush _ _ hm => cases hm.symm.trans (hf _ _ rfl)
  | loopTest hw =>
    refine h.move _ ?_
    rw [hw]
    split <;> rfl
  | @wait w hw _ => exact (h.move (w := w) .testing (by rw [hw]; rfl)).congr rfl rfl rfl rfl fun _ _ => rfl
  | testEmpty hw _ => exact h.move .loopTest (by rw [hw]; rfl)
  | @testPop w d₀ ds hw _ =>
    exact (h.move (w := w) (.popped d₀) (by rw [hw]; rfl)).congr rfl rfl rfl rfl fun _ _ => rfl
  | @begin w d₀ hw _ =>
    have h' : Served (s.setRunning d₀ (threadQueue w)) d q := h.congr rfl rfl rfl rfl fun _ _ => rfl
    exact h'.takeCmd hw fun _ => rfl
  | @cancel w d₀ r hw _ =>
    have hwin : (s.worker w).window d₀ = some true := by simp [hw, WorkPc.window]
    exact h.event (hothers hwin) (fun d => by rw [hw]; rfl) (fun _ _ => rfl) (.inl ⟨rfl, .inl rfl⟩)
  | @execute w d₀ r hw _ =>
    have hwin : (s.worker w).window d₀ = some true := by simp [hw, WorkPc.window]
    exact h.event (hothers hwin) (fun d => by rw [hw]; rfl) (fun d hd => by simp [WorkPc.current, hd])
      (.inr ⟨by simp [WorkPc.current], rfl⟩)
  | @finish w dwRet d₀ r hw =>
    have hwin : (s.worker w).window d₀ = some true := by simp [hw, WorkPc.window]
    refine h.event (hothers hwin) (fun d => by rw [hw]; rfl) (fun _ _ => rfl) (.inl ⟨rfl, ?_⟩)
    split
    · exact .inr (.inr ⟨dwRet, rfl⟩)
    · exact .inr (.inl rfl)
  | next hw _ => exact h.takeCmd hw fun _ => rfl
  | @releaseDev w d₀ hw => exact (h.move (w := w) .testing (by rw [hw]; rfl)).congr rfl rfl rfl rfl fun _ _ => rfl
  | _ => exact h.congr rfl rfl rfl rfl fun _ _ => rfl

/-! ## Wakeups -/

/-- A list that is not empty will be looked at: a post is to come or was made, or a thread is awake, which tests the
list before it blocks. -/
def Awake (s : AdbState Dev) (q : Queue) : Prop :=
  s.execList q ≠ [] → 0 < s.hExecEvent q ∨ (∃ w, threadQueue w = q ∧ (s.worker w).awake = true) ∨
    ∃ d, s.call d q = .posting true

omit [DecidableEq Dev] in
theorem Awake.congr (h : Awake s q) (h1 : s'.execList q ≠ [] → s.execList q ≠ [])
    (h2 : s'.hExecEvent q = s.hExecEvent q)
    (h3 : ∀ w, (s.worker w).awake = true → (s'.worker w).awake = true) (h4 : ∀ d, s.call d q = .posting true →
      s'.call d q = .posting true) : Awake s' q := by
  intro hne
  rw [h2]
  refine (h (h1 hne)).imp_right fun hor => hor.imp ?_ ?_
  · rintro ⟨w, hq, hw⟩
    exact ⟨w, hq, h3 w hw⟩
  · rintro ⟨d, hd⟩
    exact ⟨d, h4 d hd⟩

omit [DecidableEq Dev] in
/-- A thread moves and is awake after it. -/
theorem awake_setWorker {pc : WorkPc Dev} (hpc : pc.awake = true ∨ (s.worker w).awake = false) :
    ∀ w', (s.worker w').awake = true → ((s.setWorker w pc).worker w').awake = true := by
  intro w' hw'
  by_cases hww : w' = w
  · subst hww
    rw [setWorker_self]
    refine hpc.resolve_right fun hn => ?_
    rw [hn] at hw'
    cases hw'
  · rwa [setWorker_of_ne s pc hww]

theorem Awake.takeCmd (h : Awake s q) : Awake (s.takeCmd w d₀ q₀) q := by
  unfold AdbState.takeCmd
  cases s.cmdList d₀ q₀ with
  | nil => exact h.congr id rfl (awake_setWorker (.inl rfl)) fun _ => id
  | cons r rs => exact h.congr id rfl (awake_setWorker (.inl rfl)) fun _ => id

theorem Awake.step {publicFlush : Bool} {a : AdbStep Dev} (h : Awake s q)
    (hs : AdbState.step publicFlush s a = some s') :
    Awake s' q := by
  cases act_some hs with
  | @quitPost q₀ _ =>
    by_cases hq : q = q₀
    · subst hq
      refine fun _ => .inl ?_
      show 0 < Function.update s.hExecEvent q (s.hExecEvent q + 1) q
      rw [Function.update_self]
      exact Nat.succ_pos _
    · exact h.congr id (Function.update_of_ne hq ..) (fun _ => id) fun _ => id
  | queueCmd _ hc =>
    refine h.congr id rfl (fun _ => id) fun d hd => ?_
    refine (upd₂_of_ne _ _ _ _ fun hn => ?_).trans hd
    rw [hn.1, hn.2, hc] at hd
    cases hd
  | @request d₀ q₀ hc =>
    have hkeep : ∀ pc d, s.call d q = .posting true → upd₂ s.call d₀ q₀ pc d q = .posting true := by
      intro pc d hd
      refine (upd₂_of_ne _ _ _ _ fun hn => ?_).trans hd
      rw [hn.1, hn.2, hc] at hd
      cases hd
    unfold AdbState.request
    split
    · exact h.congr id rfl (fun _ => id) (hkeep _)
    · by_cases hq : q = q₀
      · subst hq
        cases hl : s.execList q with
        | nil => exact fun _ => .inr (.inr ⟨d₀, upd₂_self ..⟩)
        | cons d ds => exact h.congr (fun _ => by rw [hl]; simp) rfl (fun _ => id) (hkeep _)
      · refine h.congr (fun hne => ?_) rfl (fun _ => id) (hkeep _)
        have hne' : Function.update s.execList q₀ (s.execList q₀ ++ [d₀]) q ≠ [] := hne
        rwa [Function.update_of_ne hq] at hne'
  | @post d₀ q₀ b hc =>
    by_cases hq : q = q₀ ∧ b = true
    · obtain ⟨rfl, rfl⟩ := hq
      intro _
      left
      show 0 < Function.update s.hExecEvent q (s.hExecEvent q + 1) q
      rw [Function.update_self]
      exact Nat.succ_pos _
    · refine h.congr id ?_ (fun _ => id) fun d hd => ?_
      · cases b with
        | false => rfl
        | true => exact Function.update_of_ne (fun hn => hq ⟨hn, rfl⟩) ..
      · refine (upd₂_of_ne _ _ _ _ fun hn => ?_).trans hd
        rw [hn.1, hn.2, hc] at hd
        exact hq ⟨hn.2, CallPc.posting.inj hd⟩
  | loopTest hw => exact h.congr id rfl (awake_setWorker (.inr (by rw [hw]; rfl))) fun _ => id
  | @wait w _ _ =>
    by_cases hq : q = threadQueue w
    · exact fun _ => .inr (.inl ⟨w, hq.symm, by simp [setWorker, WorkPc.awake]⟩)
    · exact h.congr id (Function.update_of_ne hq ..) (awake_setWorker (.inl rfl)) fun _ => id
  | @testEmpty w _ hl =>
    by_cases hq : q = threadQueue w
    · exact fun hne => absurd (by rw [hq]; exact hl) hne
    · intro hne
      refine (h hne).imp_right fun hor => hor.imp_left ?_
      rintro ⟨w', hq', hw'⟩
      have hww : w' ≠ w := by
        rintro rfl
        exact hq hq'.symm
      exact ⟨w', hq', by rwa [setWorker_of_ne _ _ hww]⟩
  | @testPop w d₀ ds _ hl =>
    refine h.congr (fun hne => ?_) rfl (awake_setWorker (.inl rfl)) fun _ => id
    by_cases hq : q = threadQueue w
    · rw [hq, hl]
      simp
    · have hne' : Function.update s.execList (threadQueue w) ds q ≠ [] := hne
      rwa [Function.update_of_ne hq] at hne'
  | begin _ _ => exact Awake.takeCmd h
  | next _ _ => exact h.takeCmd
  | cancel _ _ | execute _ _ | finish _ | releaseDev _ =>
    exact h.congr id rfl (awake_setWorker (.inl rfl)) fun _ => id
  | _ => exact h.congr id rfl (fun _ => id) fun _ => id

/-! ## Every run -/

@[simp] theorem takeCmd_alreadyExists (s : AdbState Dev) (w : Thread) (d : Dev) (q : Queue) :
    (s.takeCmd w d q).alreadyExists = s.alreadyExists := by
  unfold AdbState.takeCmd
  cases s.cmdList d q <;> rfl

/-- `Request`'s `already exist` branch is the only place that records it. -/
theorem alreadyExists_step {publicFlush : Bool} {a : AdbStep Dev} (hs : AdbState.step publicFlush s a = some s')
    (ha : ∀ d q, a = .request d q → d ∉ s.execList q) : s'.alreadyExists = s.alreadyExists := by
  cases act_some hs with
  | @request d q _ =>
    rw [AdbState.request, if_neg (ha d q rfl)]
    rfl
  | begin _ _ => exact takeCmd_alreadyExists ..
  | next _ _ => exact takeCmd_alreadyExists ..
  | _ => rfl

/-- What holds of the device queues in every run in which only destructors flush. -/
structure ExecInv (s : AdbState Dev) : Prop where
  tokens : Tokens s
  refs : ∀ d, Refs s d
  served : ∀ d q, Served s d q
  awake : ∀ q, Awake s q
  fresh : s.alreadyExists = false

theorem execInv_start : ExecInv (start : AdbState Dev) where
  tokens := fun d q => ⟨.nowhere, by
    constructor <;> simp [start, WorkPc.window]⟩
  refs := fun d => ⟨by simp [start, listRefs, workRefs, WorkPc.on], by simp [start], fun _ => rfl⟩
  served := fun d q => by constructor <;> simp [start, WorkPc.current]
  awake := fun q hne => absurd rfl hne
  fresh := rfl

/-- **Only a destructor flushes, and it finds the queues empty.** -/
theorem ExecInv.flushless (h : ExecInv s) (hs : AdbState.step false s (.flush d q) = some s') : s.cmdList d q = [] := by
  cases act_some hs with
  | flush _ hf _ =>
    have hdead := hf.resolve_right fun hn => Bool.false_ne_true hn.1
    exact (h.refs d).empty h.tokens hdead.2 q

theorem ExecInv.step {a : AdbStep Dev} (h : ExecInv s) (hs : AdbState.step false s a = some s') : ExecInv s' := by
  have hf : ∀ d q, a = .flush d q → s.cmdList d q = [] := by
    rintro d q rfl
    exact h.flushless hs
  have hr : ∀ d q, a = .request d q → d ∉ s.execList q := by
    rintro d q rfl
    obtain ⟨hg, -⟩ := guard_some hs
    obtain ⟨loc, ht⟩ := h.tokens d q
    exact ht.located.request_fresh hg
  exact ⟨h.tokens.step hs hf, fun d => (h.refs d).step hs, fun d q => (h.served d q).step h.tokens hs hf,
    fun q => (h.awake q).step hs, (alreadyExists_step hs hr).trans h.fresh⟩

theorem execInv_reach (h : (machine Dev false).Reach s) : ExecInv s :=
  Machine.Reach.invariant (by rintro s rfl; exact execInv_start) (fun _ _ _ hi hs => hi.step hs) h

/-- The events before and after a call of an observer. -/
def Called (before : List CmdEvent) (e : CmdEvent) : Prop :=
  (before = [] ∧ (e = .onCancelled ∨ e = .onExecuting)) ∨
    (before = [.onExecuting] ∧ (e = .onExecuted ∨ ∃ dwReason, e = .onFailed dwReason))

/-- **What a step does to the records**: it queues one and calls no observer; or it calls the observer of one that is
queued and not done; or neither. -/
theorem ExecInv.records {a : AdbStep Dev} (h : ExecInv s) (hs : AdbState.step false s a = some s') :
    (∃ d dwCmdIdx cmdCode pObserver, a = .queueCmd d dwCmdIdx cmdCode pObserver ∧ s.callback a = none ∧
      s'.events = s.events ∧ s'.queued = upd₂ s.queued d (adbCmdQueueMap cmdCode)
        (s.queued d (adbCmdQueueMap cmdCode) ++
        [⟨(s.queued d (adbCmdQueueMap cmdCode)).length, dwCmdIdx, cmdCode, pObserver⟩])) ∨
    (∃ d q r e, s.callback a = some (r, e) ∧ r ∈ s.queued d q ∧ Called (s.events d q r.pRec) e ∧ s'.queued = s.queued ∧
      s'.events = upd₂ s.events d q (Function.update (s.events d q) r.pRec (s.events d q r.pRec ++ [e]))) ∨
    ((∀ d dwCmdIdx cmdCode pObserver, a ≠ .queueCmd d dwCmdIdx cmdCode pObserver) ∧ s.callback a = none ∧
      s'.queued = s.queued ∧ s'.events = s.events) := by
  have hcur : ∀ {w d r b}, (s.worker w).current d = some (r, b) →
      r ∈ s.queued d (threadQueue w) ∧ s.events d (threadQueue w) r.pRec = begunEvents b := by
    intro w d r b hw
    obtain ⟨h1, h2⟩ := (h.served d (threadQueue w)).now w rfl r b hw
    rw [(h.served d (threadQueue w)).order]
    exact ⟨List.mem_append_left _ h1, h2⟩
  have htake : ∀ (t : AdbState Dev) w d q,
      (t.takeCmd w d q).queued = t.queued ∧ (t.takeCmd w d q).events = t.events := by
    intro t w d q
    unfold AdbState.takeCmd
    cases t.cmdList d q <;> exact ⟨rfl, rfl⟩
  cases act_some hs with
  | @queueCmd d dwCmdIdx cmdCode pObserver _ _ =>
    exact .inl ⟨d, dwCmdIdx, cmdCode, pObserver, rfl, rfl, rfl, rfl⟩
  | flush _ _ hm => cases hm.symm.trans (h.flushless hs)
  | @cancel w d r hw hd =>
    have hnow : (s.worker w).current d = some (r, false) := by simp [hw, WorkPc.current]
    obtain ⟨h1, h2⟩ := hcur hnow
    exact .inr (.inl ⟨d, threadQueue w, r, .onCancelled, by simp [callback, hw, hd], h1, .inl ⟨h2, .inl rfl⟩, rfl, rfl⟩)
  | @execute w d r hw hd =>
    have hnow : (s.worker w).current d = some (r, false) := by simp [hw, WorkPc.current]
    obtain ⟨h1, h2⟩ := hcur hnow
    exact .inr (.inl ⟨d, threadQueue w, r, .onExecuting, by simp [callback, hw, hd], h1, .inl ⟨h2, .inr rfl⟩, rfl, rfl⟩)
  | @finish w dwRet d r hw =>
    have hnow : (s.worker w).current d = some (r, true) := by simp [hw, WorkPc.current]
    obtain ⟨h1, h2⟩ := hcur hnow
    right; left
    refine ⟨d, threadQueue w, r, if dwRet ≠ errorSuccess then .onFailed dwRet else .onExecuted,
      by simp only [callback, hw], h1, .inr ⟨h2, ?_⟩, rfl, rfl⟩
    split
    · exact .inr ⟨dwRet, rfl⟩
    · exact .inl rfl
  | begin _ _ | next _ _ => exact .inr (.inr ⟨by simp, rfl, (htake _ _ _ _).1, (htake _ _ _ _).2⟩)
  | request _ =>
    refine .inr (.inr ⟨by simp, rfl, ?_⟩)
    unfold AdbState.request
    split <;> exact ⟨rfl, rfl⟩
  | _ => exact .inr (.inr ⟨by simp, rfl, rfl, rfl⟩)

/-- **The device queues are served serially, in order, each record once**: at most one thread has the device from its
list until `_bRunning` is cleared; the records given to `ExecuteOne` are, in order, the first of those queued, all
different; no observer is called before its record is given, and then as it should be, to the end unless a thread still
has the record; and `Request` never finds the device in its list. -/
theorem execute_serial (h : (machine Dev false).Reach s) (d : Dev) (q : Queue) :
    (∀ w w', threadQueue w = q → threadQueue w' = q → (s.worker w).window d ≠ none → (s.worker w').window d ≠ none →
      w = w') ∧
    s.queued d q = s.executed d q ++ s.cmdList d q ∧ ((s.queued d q).map CmdRec.pRec).Nodup ∧
    (∀ r ∈ s.cmdList d q, s.events d q r.pRec = []) ∧
    (∀ r ∈ s.executed d q, Complete (s.events d q r.pRec) ∨ ∃ w b, threadQueue w = q ∧
      (s.worker w).current d = some (r, b) ∧ s.events d q r.pRec = begunEvents b) ∧
    s.alreadyExists = false := by
  have hi := execInv_reach h
  have hsv := hi.served d q
  refine ⟨?_, hsv.order, hsv.nodup, ?_, ?_, hi.fresh⟩
  · intro w w' hq hq' hw hw'
    obtain ⟨loc, ht⟩ := hi.tokens d q
    obtain ⟨b, hb⟩ := Option.ne_none_iff_exists'.1 hw
    obtain ⟨b', hb'⟩ := Option.ne_none_iff_exists'.1 hw'
    have h1 := (ht.work w hq b).1 hb
    rw [(ht.work w' hq' b').1 hb'] at h1
    exact (Loc.work.inj h1).1.symm
  · intro r hr
    refine hsv.fresh _ (Nat.le_of_not_lt fun hlt => ?_)
    -- a record of that number was already given
    obtain ⟨r', hr', he⟩ : ∃ r' ∈ s.executed d q, r'.pRec = r.pRec := by
      have : r.pRec ∈ (s.executed d q).map CmdRec.pRec := by
        rw [hsv.executed_numbered]
        exact List.mem_range.2 hlt
      exact List.mem_map.1 this
    have hnd := hsv.nodup
    rw [hsv.order, List.map_append] at hnd
    exact (List.disjoint_of_nodup_append hnd) (List.mem_map.2 ⟨r', hr', he⟩) (List.mem_map_of_mem hr)
  · intro r hr
    refine (hsv.done _ (hsv.pRec_lt hr)).imp_right ?_
    rintro ⟨w, r', b, hq, hw, he⟩
    obtain ⟨hr', hev⟩ := hsv.now w hq r' b hw
    obtain rfl := hsv.pRec_inj hr' hr he
    exact ⟨w, b, hq, hw, hev⟩

/-- Two commands for one device, the second while the first waits for its thread. -/
def servingRun : List (AdbStep Nat) := [.newDevice 0, .updateState 0 false, .queueCmd 0 7 .getSysinfo .devTableMod,
  .request 0 0, .post 0 0, .loopTest 0, .wait 0, .test 0, .queueCmd 0 8 .getBattinfo .devTableMod, .begin 0,
  .executeOne 0]

theorem execute_serial_serving : ∃ s, (machine Nat false).run start servingRun = some s ∧
    (s.worker 0).current 0 = some (⟨0, 7, .getSysinfo, .devTableMod⟩, true) ∧
    s.queued 0 0 = s.executed 0 0 ++ s.cmdList 0 0 ∧
    (∀ w, threadQueue w = 0 → (s.worker w).window 0 ≠ none → w = 0) ∧ s.alreadyExists = false := by
  obtain ⟨s, hs, hw⟩ := Option.map_eq_some_iff.1 (show ((machine Nat false).run start servingRun).map
    (fun s => (s.worker 0).current 0) = some (some (⟨0, 7, .getSysinfo, .devTableMod⟩, true)) by decide)
  obtain ⟨h1, h2, -, -, -, h6⟩ := execute_serial ((Machine.Reach.init rfl).run hs) 0 0
  refine ⟨s, hs, hw, h2, fun w hq hne => h1 w 0 hq rfl hne ?_, h6⟩
  intro hn
  rw [current_of_window hn] at hw
  cases hw

/-- **No command is stranded**: a queue with commands and nobody on it has its device in the list, or popped by a thread
about to run it, or a `QueueCmd` still inside its critical section; and a list that is not empty will be looked at. -/
theorem no_command_stranded (h : (machine Dev false).Reach s) (q : Queue) :
    (∀ d, s.cmdList d q ≠ [] → s.bRunning d q = false →
      d ∈ s.execList q ∨ (∃ w, threadQueue w = q ∧ s.worker w = .popped d) ∨ s.call d q ≠ .none) ∧
    (s.execList q ≠ [] → 0 < s.hExecEvent q ∨ (∃ w, threadQueue w = q ∧ (s.worker w).awake = true) ∨
      ∃ d, s.call d q = .posting true) := by
  have hi := execInv_reach h
  refine ⟨fun d hne hrun => ?_, hi.awake q⟩
  obtain ⟨loc, ht⟩ := hi.tokens d q
  cases loc with
  | nowhere => exact absurd (ht.empty rfl) hne
  | requesting => exact .inr (.inr (by rw [ht.call.2 rfl]; simp))
  | listed =>
    left
    refine List.count_pos_iff.1 ?_
    rw [ht.list]
    exact Nat.one_pos
  | work w b =>
    have hq := ht.queue w b rfl
    have hw := (ht.work w hq b).2 rfl
    cases b with
    | false =>
      refine .inr (.inl ⟨w, hq, ?_⟩)
      cases hp : s.worker w <;> rw [hp] at hw <;> simp_all [WorkPc.window]
    | true =>
      rw [ht.running.2 ⟨w, rfl⟩] at hrun
      cases hrun

theorem no_command_stranded_queued : ∃ s, (machine Nat false).run start (servingRun.take 3) = some s ∧
    (0 ∈ s.execList 0 ∨ (∃ w, threadQueue w = 0 ∧ s.worker w = .popped 0) ∨ s.call 0 0 ≠ .none) := by
  obtain ⟨s, hs, hw⟩ := Option.map_eq_some_iff.1 (show ((machine Nat false).run start (servingRun.take 3)).map
    (fun s => (s.cmdList 0 0, s.bRunning 0 0)) = some ([⟨0, 7, .getSysinfo, .devTableMod⟩], false) by decide)
  obtain ⟨h1, h2⟩ := Prod.mk.inj hw
  exact ⟨s, hs, (no_command_stranded ((Machine.Reach.init rfl).run hs) 0).1 0 (by rw [h1]; simp) h2⟩

end AdbState

end DevMgr
