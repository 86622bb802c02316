import DevMgr.AdbServe
import DevMgr.Progress
/-!
# AdbProgress — the commands come to their end

As long as nothing more is queued and `Cleanup` is not called, the threads of the device queues and the `QueueCmd` calls
that are under way can take only so many steps, whatever else is done with the devices (`Descends`), and one of them can
go on until all threads wait and nothing is to be looked at (`Offers`).  Every record is done then.
-/
namespace DevMgr

open Machines

/-- Nothing is queued, and the queues are not cleaned up. -/
def AdbStep.calm {Dev : Type} : AdbStep Dev → Bool
  | .queueCmd _ _ _ _ | .quit => false
  | _ => true

/-- A step of a thread, or of a `QueueCmd` under way. -/
def AdbStep.serving {Dev : Type} : AdbStep Dev → Bool
  | .request _ _ | .post _ _ | .loopTest _ | .wait _ | .test _ | .begin _ | .executeOne _ | .finish _ _ | .next _
  | .releaseDev _ => true
  | _ => false

/-- How many steps a thread takes at most before it waits, if it finds no device and no command. -/
def WorkPc.rank {Dev : Type} : WorkPc Dev → Nat
  | .waiting | .left => 0
  | .loopTest => 1
  | .testing => 2
  | .releasing _ => 3
  | .popped _ | .next _ => 4
  | .executing _ _ => 5
  | .executeOne _ _ => 6

/-- With the device it lists and the post it makes. -/
def CallPc.rank : CallPc → Nat
  | .none => 0
  | .posting _ => 4
  | .requesting => 8

namespace AdbState

variable {Dev : Type} [DecidableEq Dev] {s s' : AdbState Dev} {a : AdbStep Dev} {d : Dev} {q : Queue} {w : Thread}
  {ds : Finset Dev}

def Calm (_ : AdbState Dev) (a : AdbStep Dev) : Prop := a.calm = true

instance (s : AdbState Dev) (a : AdbStep Dev) : Decidable (Calm s a) := inferInstanceAs (Decidable (_ = _))

def workRank (worker : Thread → WorkPc Dev) : Nat := ∑ w, (worker w).rank

def postRank (hExecEvent : Queue → Nat) : Nat := ∑ q, 3 * hExecEvent q

def listRank (execList : Queue → List Dev) : Nat := ∑ q, 3 * (execList q).length

def cmdRank (ds : Finset Dev) (cmdList : Dev → Queue → List CmdRec) : Nat :=
  ∑ x : ds × Queue, 3 * (cmdList x.1 x.2).length

def callRank (ds : Finset Dev) (call : Dev → Queue → CallPc) : Nat := ∑ x : ds × Queue, (call x.1 x.2).rank

/-- The steps to come, with the commands of the devices `ds`. -/
def rank (ds : Finset Dev) (s : AdbState Dev) : Nat :=
  workRank s.worker + postRank s.hExecEvent + listRank s.execList + cmdRank ds s.cmdList + callRank ds s.call

/-- **Nothing is left to do.** -/
structure Quiet (s : AdbState Dev) : Prop where
  worker : ∀ w, s.worker w = .waiting
  post : ∀ q, s.hExecEvent q = 0
  call : ∀ d q, s.call d q = .none

/-- Every record that was queued is done. -/
def Done (s : AdbState Dev) : Prop := ∀ d q, ∀ r ∈ s.queued d q, Complete (s.events d q r.pRec)

/-- Before `Cleanup`, with all commands on the devices `ds`. -/
structure Working (ds : Finset Dev) (s : AdbState Dev) : Prop where
  exec : s.ExecInv
  open_ : s.bExecQuit = false
  here : ∀ w, s.worker w ≠ .left
  call : ∀ d q, s.call d q ≠ .none → d ∈ ds
  cmd : ∀ d q, s.cmdList d q ≠ [] → d ∈ ds

/-! ### What a step changes of the rank -/

omit [DecidableEq Dev] in
theorem workRank_update (worker : Thread → WorkPc Dev) (w : Thread) (pc : WorkPc Dev) :
    workRank (Function.update worker w pc) + (worker w).rank = workRank worker + pc.rank :=
  sum_update (fun _ (pc : WorkPc Dev) => pc.rank) rfl

theorem postRank_update (hExecEvent : Queue → Nat) (q : Queue) (n : Nat) :
    postRank (Function.update hExecEvent q n) + 3 * hExecEvent q = postRank hExecEvent + 3 * n :=
  sum_update (fun _ n => 3 * n) rfl

omit [DecidableEq Dev] in
theorem listRank_update (execList : Queue → List Dev) (q : Queue) (l : List Dev) :
    listRank (Function.update execList q l) + 3 * (execList q).length = listRank execList + 3 * l.length :=
  sum_update (fun _ (l : List Dev) => 3 * l.length) rfl

theorem cmdRank_update (cmdList : Dev → Queue → List CmdRec) (hd : d ∈ ds) (q : Queue) (l : List CmdRec) :
    cmdRank ds (upd₂ cmdList d q l) + 3 * (cmdList d q).length = cmdRank ds cmdList + 3 * l.length :=
  sum_update (fun _ (l : List CmdRec) => 3 * l.length) (upd₂_restrict cmdList hd q l)

theorem callRank_update (call : Dev → Queue → CallPc) (hd : d ∈ ds) (q : Queue) (pc : CallPc) :
    callRank ds (upd₂ call d q pc) + (call d q).rank = callRank ds call + pc.rank :=
  sum_update (fun _ (pc : CallPc) => pc.rank) (upd₂_restrict call hd q pc)

/-- `Execute`'s loop takes a record or leaves. -/
theorem rank_takeCmd (hw : (s.worker w).rank = 4) (hin : s.cmdList d q ≠ [] → d ∈ ds) :
    rank ds (s.takeCmd w d q) < rank ds s := by
  unfold AdbState.takeCmd
  cases hm : s.cmdList d q with
  | nil =>
    have hwork := workRank_update s.worker w (.releasing d)
    rw [hw] at hwork
    simp only [rank, setWorker, WorkPc.rank] at hwork ⊢
    omega
  | cons r rs =>
    have hwork := workRank_update s.worker w (.executeOne d r)
    have hcmd := cmdRank_update s.cmdList (hin (by rw [hm]; simp)) q rs
    rw [hw] at hwork
    simp only [rank, setWorker, hm, WorkPc.rank, List.length_cons] at hwork hcmd ⊢
    omega

theorem Working.request (h : Working ds s) (hc : s.call d q = .requesting) :
    rank ds (s.request d q) < rank ds s := by
  obtain ⟨loc, hloc⟩ := h.exec.tokens d q
  have hcall := callRank_update s.call (h.call d q (by rw [hc]; simp)) q (.posting (s.execList q).isEmpty)
  have hlist := listRank_update s.execList q (s.execList q ++ [d])
  unfold AdbState.request
  rw [if_neg (hloc.located.request_fresh hc)]
  simp only [rank, addRef, setCall, hc, CallPc.rank, List.length_append, List.length_singleton] at hcall hlist ⊢
  omega

theorem Working.post (h : Working ds s) {bEmpty : Bool} (hc : s.call d q = .posting bEmpty) :
    rank ds { s.setCall d q .none with
      hExecEvent := if bEmpty then Function.update s.hExecEvent q (s.hExecEvent q + 1) else s.hExecEvent } <
      rank ds s := by
  have hcall := callRank_update s.call (h.call d q (by rw [hc]; simp)) q .none
  have hpost := postRank_update s.hExecEvent q (s.hExecEvent q + 1)
  cases bEmpty <;> simp only [rank, setCall, hc, CallPc.rank, if_true, Bool.false_eq_true, if_false] at hcall ⊢ <;>
    omega

/-- **A step of the threads lowers the rank.** -/
theorem Working.rank_lt (h : Working ds s) (hp : a.serving = true) (hs : AdbState.step false s a = some s') :
    rank ds s' < rank ds s := by
  -- a thread's move that is about itself alone
  have hmove : ∀ {w : Thread} {r : WorkPc Dev} (pc : WorkPc Dev), s.worker w = r → pc.rank < r.rank →
      workRank (Function.update s.worker w pc) < workRank s.worker := by
    rintro w r pc rfl hlt
    have hwork := workRank_update s.worker w pc
    omega
  cases act_some hs with
  | quit | quitPost | newDevice | addRef | release | updateState | queueCmd | flush => cases hp
  | request hc => exact h.request hc
  | post hc => exact h.post hc
  | @loopTest w hw =>
    have hwork := hmove .waiting hw Nat.zero_lt_one
    simp only [rank, setWorker, h.open_, Bool.false_eq_true, if_false]
    omega
  | @wait w hw ht =>
    have hwork := workRank_update s.worker w .testing
    have hpost := postRank_update s.hExecEvent (threadQueue w) (s.hExecEvent (threadQueue w) - 1)
    rw [hw] at hwork
    simp only [rank, setWorker, WorkPc.rank] at hwork ⊢
    omega
  | testEmpty hw _ =>
    have hwork := hmove .loopTest hw (Nat.lt_succ_self 1)
    simp only [rank, setWorker]
    omega
  | @testPop w d dl hw hl =>
    have hwork := workRank_update s.worker w (.popped d)
    have hlist := listRank_update s.execList (threadQueue w) dl
    rw [hw] at hwork
    simp only [rank, setWorker, hl, WorkPc.rank, List.length_cons] at hwork hlist ⊢
    omega
  | @begin w d hw _ =>
    have hpc : ((s.setRunning d (threadQueue w)).worker w).rank = 4 := by
      rw [show (s.setRunning d (threadQueue w)).worker w = .popped d from hw]
      rfl
    exact rank_takeCmd (s := s.setRunning d (threadQueue w)) hpc (h.cmd d _)
  | next hw _ => exact rank_takeCmd (by rw [hw]; rfl) (h.cmd _ _)
  | @cancel w d r hw _ =>
    have hwork := hmove (.next d) hw (show 4 < 6 by decide)
    simp only [rank, setWorker, event]
    omega
  | @execute w d r hw _ =>
    have hwork := hmove (.executing d r) hw (Nat.lt_succ_self 5)
    simp only [rank, setWorker, event]
    omega
  | @finish w dwRet d r hw =>
    have hwork := hmove (.next d) hw (Nat.lt_succ_self 4)
    simp only [rank, setWorker, event]
    omega
  | releaseDev hw =>
    have hwork := hmove .testing hw (Nat.lt_succ_self 2)
    simp only [rank, setWorker, release]
    omega

/-- Nothing raises it. -/
theorem Working.rank_le (h : Working ds s) (hok : a.calm = true) (hs : AdbState.step false s a = some s') :
    rank ds s' ≤ rank ds s := by
  by_cases hp : a.serving = true
  · exact (h.rank_lt hp hs).le
  · cases act_some hs with
    | quit | queueCmd => cases hok
    | quitPost hq =>
      rw [h.open_] at hq
      cases hq
    | newDevice | addRef | release | updateState => exact le_refl _
    | flush _ _ hm => cases hm.symm.trans (h.exec.flushless hs)
    | _ => exact absurd rfl hp

/-! ### What goes on -/

omit [DecidableEq Dev] in
/-- A thread leaves its loop in `Cleanup` alone. -/
theorem here_setWorker (h : ∀ w, s.worker w ≠ .left) {pc : WorkPc Dev} (hpc : pc ≠ .left) (w' : Thread) :
    (s.setWorker w pc).worker w' ≠ .left := by
  by_cases hw : w' = w
  · rw [hw, setWorker_self]
    exact hpc
  · rw [setWorker_of_ne s pc hw]
    exact h w'

theorem here_step (h : ∀ w, s.worker w ≠ .left) (hq : s.bExecQuit = false)
    (hs : AdbState.step false s a = some s') : ∀ w, s'.worker w ≠ .left := by
  cases act_some hs with
  | loopTest =>
    rw [hq]
    exact here_setWorker h (by simp)
  | begin | next =>
    unfold AdbState.takeCmd
    split <;> exact here_setWorker h (by simp)
  | request =>
    unfold AdbState.request
    split <;> exact h
  | wait | testEmpty | testPop | cancel | execute | finish | releaseDev => exact here_setWorker h (by simp)
  | quit | quitPost | newDevice | addRef | release | updateState | queueCmd | post | flush => exact h

theorem call_step (hok : a.calm = true) (hs : AdbState.step false s a = some s') (hc : s'.call d q ≠ .none) :
    s.call d q ≠ .none := by
  have hupd : ∀ {d₀ q₀ pc}, s.call d₀ q₀ ≠ .none → upd₂ s.call d₀ q₀ pc d q ≠ .none → s.call d q ≠ .none := by
    intro d₀ q₀ pc hne hc
    by_cases hx : d = d₀ ∧ q = q₀
    · rw [hx.1, hx.2]
      exact hne
    · rwa [upd₂_of_ne _ _ _ _ hx] at hc
  cases act_some hs with
  | queueCmd => cases hok
  | request h1 =>
    unfold AdbState.request at hc
    split at hc <;> exact hupd (by rw [h1]; simp) hc
  | post h1 => exact hupd (by rw [h1]; simp) hc
  | begin | next =>
    unfold AdbState.takeCmd at hc
    split at hc <;> exact hc
  | _ => exact hc

theorem cmd_step (hok : a.calm = true) (hs : AdbState.step false s a = some s') (hc : s'.cmdList d q ≠ []) :
    s.cmdList d q ≠ [] := by
  have htake : ∀ (t : AdbState Dev) {w d₀ q₀}, (t.takeCmd w d₀ q₀).cmdList d q ≠ [] → t.cmdList d q ≠ [] := by
    intro t w d₀ q₀ hc
    unfold AdbState.takeCmd at hc
    split at hc
    · exact hc
    · by_cases hx : d = d₀ ∧ q = q₀
      · rw [hx.1, hx.2]
        simp [*]
      · simpa only [upd₂_of_ne _ _ _ _ hx] using hc
  cases act_some hs with
  | queueCmd => cases hok
  | @flush d₀ q₀ r rs _ _ hm =>
    by_cases hx : d = d₀ ∧ q = q₀
    · rw [hx.1, hx.2, hm]
      simp
    · simpa only [upd₂_of_ne _ _ _ _ hx] using hc
  | request =>
    unfold AdbState.request at hc
    split at hc <;> exact hc
  | @begin w d₀ _ _ => exact htake (s.setRunning d₀ (threadQueue w)) hc
  | next => exact htake s hc
  | _ => exact hc

theorem Working.step (h : Working ds s) (hok : a.calm = true) (hs : AdbState.step false s a = some s') :
    Working ds s' where
  exec := h.exec.step hs
  open_ := by
    cases act_some hs with
    | quit => cases hok
    | begin | next =>
      unfold AdbState.takeCmd
      split <;> exact h.open_
    | request =>
      unfold AdbState.request
      split <;> exact h.open_
    | _ => exact h.open_
  here := here_step h.here h.open_ hs
  call d q hc := h.call d q (call_step hok hs hc)
  cmd d q hc := h.cmd d q (cmd_step hok hs hc)

theorem descends (ds : Finset Dev) : Machine.Descends (machine Dev false) Calm AdbStep.serving (Working ds)
    (rank ds) where
  keeps _ _ _ h hok hs := h.step hok hs
  rank_le _ _ _ h hok hs := h.rank_le hok hs
  rank_lt _ _ _ h _ hp hs := h.rank_lt hp hs

theorem exists_thread : ∀ q : Queue, ∃ w, threadQueue w = q := by decide

/-- A thread that does not wait can go on when no call holds the lock it needs. -/
theorem worker_goes (hc : ∀ d q, s.call d q = .none) (hw : s.worker w ≠ .waiting) (hl : s.worker w ≠ .left) :
    ∃ a s', a.serving = true ∧ a.calm = true ∧ AdbState.step false s a = some s' := by
  cases hpc : s.worker w with
  | waiting => exact absurd hpc hw
  | left => exact absurd hpc hl
  | loopTest => exact ⟨.loopTest w, _, rfl, rfl, if_pos hpc⟩
  | testing =>
    cases hx : s.execList (threadQueue w) with
    | nil => exact ⟨.test w, s.setWorker w .loopTest, rfl, rfl, by simp [AdbState.step, hpc, hx]⟩
    | cons d dl => exact ⟨.test w, { s.setWorker w (.popped d) with
        execList := Function.update s.execList (threadQueue w) dl }, rfl, rfl, by simp [AdbState.step, hpc, hx]⟩
  | popped d => exact ⟨.begin w, (s.setRunning d (threadQueue w)).takeCmd w d (threadQueue w), rfl, rfl,
      by simp [AdbState.step, hpc, hc]⟩
  | executeOne d r =>
    by_cases hd : s.deviceState d ≠ .main
    · exact ⟨.executeOne w, (s.event d (threadQueue w) r .onCancelled).setWorker w (.next d), rfl, rfl,
        by simp [AdbState.step, hpc, hd]⟩
    · exact ⟨.executeOne w, (s.event d (threadQueue w) r .onExecuting).setWorker w (.executing d r), rfl, rfl,
        by simp only [AdbState.step, hpc, if_neg hd]⟩
  | executing d r => exact ⟨.finish w errorSuccess, (s.event d (threadQueue w) r .onExecuted).setWorker w (.next d),
      rfl, rfl, by simp [AdbState.step, hpc]⟩
  | next d => exact ⟨.next w, s.takeCmd w d (threadQueue w), rfl, rfl, by simp [AdbState.step, hpc, hc]⟩
  | releasing d => exact ⟨.releaseDev w, (s.release d).setWorker w .testing, rfl, rfl, by simp [AdbState.step, hpc]⟩

/-- **Until all is quiet somebody can go on.** -/
theorem offers (ds : Finset Dev) : Machine.Offers (machine Dev false) Calm AdbStep.serving (Working ds) Quiet := by
  intro s h hn
  have hgo : ∀ {a s'}, a.serving = true → AdbState.step false s a = some s' → ∃ a s', a.serving = true ∧ Calm s a ∧
      (machine Dev false).step s a = some s' := by
    intro a s' hp hs
    refine ⟨a, s', hp, ?_, hs⟩
    cases a <;> first | rfl | cases hp
  by_cases hc : ∀ d q, s.call d q = .none
  · by_cases hw : ∀ w, s.worker w = .waiting
    · -- some semaphore is up, and its queue has a thread
      obtain ⟨q, hq⟩ : ∃ q, s.hExecEvent q ≠ 0 := by
        by_contra hno
        exact hn ⟨hw, fun q => by_contra fun hq => hno ⟨q, hq⟩, hc⟩
      obtain ⟨w, rfl⟩ := exists_thread q
      exact hgo (a := .wait w) rfl (if_pos ⟨hw w, Nat.pos_of_ne_zero hq⟩)
    · obtain ⟨w, hw⟩ := not_forall.1 hw
      obtain ⟨a, s', hp, -, hs⟩ := worker_goes hc hw (h.here w)
      exact hgo hp hs
  · obtain ⟨d, hc⟩ := not_forall.1 hc
    obtain ⟨q, hc⟩ := not_forall.1 hc
    cases hcall : s.call d q with
    | none => exact absurd hcall hc
    | requesting => exact hgo (a := .request d q) rfl (if_pos hcall)
    | posting b =>
      obtain ⟨s', hs⟩ : ∃ s', AdbState.step false s (.post d q) = some s' := by
        simp only [AdbState.step, hcall]
        exact ⟨_, rfl⟩
      exact hgo rfl hs

/-- **When all is quiet every record is done.** -/
theorem Quiet.done (h : Quiet s) (hi : ExecInv s) : Done s := by
  intro d q r hr
  have hcmd : s.cmdList d q = [] := by
    obtain ⟨loc, ht⟩ := hi.tokens d q
    refine ht.empty ?_
    cases loc with
    | nowhere => rfl
    | requesting => cases (h.call d q).symm.trans (ht.call.2 rfl)
    | listed =>
      have hne : s.execList q ≠ [] := by
        intro hnil
        have hl := ht.list
        rw [hnil, if_pos rfl] at hl
        cases hl
      rcases hi.awake q hne with hp | ⟨w, -, hw⟩ | ⟨d', hd⟩
      · exact absurd (h.post q) hp.ne'
      · rw [h.worker w] at hw
        cases hw
      · cases (h.call d' q).symm.trans hd
    | work w b =>
      have hw := (ht.work w (ht.queue w b rfl) b).2 rfl
      rw [h.worker w] at hw
      cases hw
  have hsv := hi.served d q
  rw [hsv.order, hcmd, List.append_nil] at hr
  rcases hsv.done _ (hsv.pRec_lt hr) with hc | ⟨w, r', b, -, hw, -⟩
  · exact hc
  · rw [h.worker w] at hw
    cases hw

/-! ### Every run -/

/-- The devices of a run are finitely many. -/
theorem created_finite (h : (machine Dev false).Reach s) : ∃ ds : Finset Dev, ∀ d, s.created d = true → d ∈ ds := by
  refine h.invariant (I := fun s => ∃ ds : Finset Dev, ∀ d, s.created d = true → d ∈ ds) ?_ fun s a s' hi hs => ?_
  · rintro _ rfl
    exact ⟨∅, fun d hd => by cases hd⟩
  · obtain ⟨ds, hds⟩ := hi
    cases act_some hs with
    | @newDevice d _ =>
      refine ⟨insert d ds, fun x hx => ?_⟩
      by_cases hxd : x = d
      · rw [hxd]
        exact Finset.mem_insert_self d ds
      · have hold : Function.update s.created d true x = true := hx
        rw [Function.update_of_ne hxd] at hold
        exact Finset.mem_insert_of_mem (hds x hold)
    | request =>
      unfold AdbState.request
      split <;> exact ⟨ds, hds⟩
    | begin | next =>
      unfold AdbState.takeCmd
      split <;> exact ⟨ds, hds⟩
    | _ => exact ⟨ds, hds⟩

theorem here_reach (h : (machine Dev false).Reach s) (hq : s.bExecQuit = false) : ∀ w, s.worker w ≠ .left := by
  refine h.invariant (I := fun s => s.bExecQuit = false → ∀ w, s.worker w ≠ .left) ?_ (fun s a s' hi hs hq => ?_) hq
  · rintro _ rfl - w hw
    cases hw
  · have hold : s.bExecQuit = false := by
      cases act_some hs with
      | quit => cases hq
      | begin | next =>
        unfold AdbState.takeCmd at hq
        split at hq <;> exact hq
      | request =>
        unfold AdbState.request at hq
        split at hq <;> exact hq
      | _ => exact hq
    exact here_step (hi hold) hold hs

theorem working_reach (h : (machine Dev false).Reach s) (hq : s.bExecQuit = false) : ∃ ds, Working ds s := by
  have hi := execInv_reach h
  obtain ⟨ds, hds⟩ := created_finite h
  have hfresh : ∀ d, d ∉ ds → s.lRefCnt d = 0 := fun d hd =>
    (hi.refs d).fresh (Bool.eq_false_iff.2 fun hn => hd (hds d hn))
  refine ⟨ds, hi, hq, here_reach h hq, fun d q hc => ?_, fun d q hc => ?_⟩
  · by_contra hd
    have hsum := (hi.refs d).sum
    have hpos := (hi.refs d).call q hc
    rw [hfresh d hd] at hsum
    omega
  · by_contra hd
    exact hc ((hi.refs d).empty hi.tokens (hfresh d hd) q)

/-- **Every command comes to its end**: from any state before `Cleanup`, as long as nothing more is queued and whatever
else is done with the devices, the threads and the calls under way take no more than some number of steps under every
schedule; while a record is not done one of them can take one; and they can always be run until every record that was
ever queued is done. -/
theorem commands_end (h : (machine Dev false).Reach s) (hq : s.bExecQuit = false) :
    ∃ n, ∀ as s', (machine Dev false).runWhen Calm s as = some s' →
      as.countP AdbStep.serving ≤ n ∧
      (¬ Done s' → ∃ a t, a.serving = true ∧ AdbState.step false s' a = some t) ∧
      ∃ bs t, (machine Dev false).runWhen Calm s' bs = some t ∧ (∀ a ∈ bs, a.serving = true) ∧ Done t := by
  obtain ⟨ds, hw⟩ := working_reach h hq
  refine ⟨rank ds s, fun as s' hr => ?_⟩
  have hw' := (descends ds).runWhen hw hr
  refine ⟨?_, fun hn => ?_, ?_⟩
  · have hle := (descends ds).countP_le hw hr
    omega
  · obtain ⟨a, t, hp, -, ht⟩ := offers ds s' hw' fun hquiet => hn (hquiet.done hw'.exec)
    exact ⟨a, t, hp, ht⟩
  · obtain ⟨bs, t, hbs, hquiet, hall⟩ := (descends ds).exists_runWhen (offers ds) _ (Nat.le_refl _) hw'
    exact ⟨bs, t, hbs, hall, hquiet.done ((descends ds).runWhen hw' hbs).exec⟩

theorem commands_end_serving : ∃ s n, (machine Nat false).run start (servingRun.take 9) = some s ∧
    s.queued 0 0 = [⟨0, 7, .getSysinfo, .devTableMod⟩, ⟨1, 8, .getBattinfo, .devTableMod⟩] ∧
    ∀ as s', (machine Nat false).runWhen Calm s as = some s' → as.countP AdbStep.serving ≤ n ∧
      ∃ bs t, (machine Nat false).runWhen Calm s' bs = some t ∧ Done t := by
  obtain ⟨s, hs, hv⟩ := Option.map_eq_some_iff.1 (show ((machine Nat false).run start (servingRun.take 9)).map
    (fun s => (s.queued 0 0, s.bExecQuit)) =
      some ([⟨0, 7, .getSysinfo, .devTableMod⟩, ⟨1, 8, .getBattinfo, .devTableMod⟩], false) by decide)
  obtain ⟨hqueued, hq⟩ := Prod.mk.inj hv
  obtain ⟨n, hn⟩ := commands_end ((Machine.Reach.init rfl).run hs) hq
  refine ⟨s, n, hs, hqueued, fun as s' hr => ?_⟩
  obtain ⟨h1, -, bs, t, hbs, -, hdone⟩ := hn as s' hr
  exact ⟨h1, bs, t, hbs, hdone⟩

end AdbState

end DevMgr
