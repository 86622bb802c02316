import DevMgr.ClientWork
/-!
# ClientWake — why a session of a client object ends

`_hWakeEvent` is posted by `EndSession` and by `Unload`, and keeps the posts that nobody waited for; `_bSessionEnd` is
set by the first `EndSession` of the object and never cleared.  A session that starts with both takes the post of an
earlier one for its own end.
-/
namespace DevMgr

open Machines

namespace ClientWork

variable {Inst Caller : Type} [DecidableEq Inst] {s s' : ClientWork Inst Caller} {a : WorkStep Inst Caller}

/-- A session has a reason to end: `EndSession` was called in it, or `_bQuit` was set. -/
def Reason (s : ClientWork Inst Caller) : Prop := s.ended = true ∨ s.bQuit = true

/-- **A step that leaves nothing of earlier sessions**: not the `Start` of a session with a post in `_hWakeEvent` and
`_bSessionEnd` set, unless `_bQuit` is set. -/
def Fresh (s : ClientWork Inst Caller) : WorkStep Inst Caller → Prop
  | .start => 0 < s.hWakeEvent → s.bSessionEnd = true → s.bQuit = true
  | _ => True

instance (s : ClientWork Inst Caller) : (a : WorkStep Inst Caller) → Decidable (Fresh s a)
  | .start => inferInstanceAs (Decidable (0 < s.hWakeEvent → s.bSessionEnd = true → s.bQuit = true))
  | .mux _ | .load | .create _ | .unload | .unloadPost | .join | .fini | .loopTest | .connect _ _ | .connectFails
  | .store | .register | .waitTest | .wait | .endTest | .unregister | .stopped | .clear | .finish | .lock _ | .sendTest
  | .sendAssert | .sendCall | .send | .sendDone | .recv | .endSession | .endSuspend | .endPost => isTrue trivial

/-- A post that the worker can take or took as the end of its session has a reason, and so has a worker that leaves. -/
structure Reasoned (s : ClientWork Inst Caller) : Prop where
  waits : s.worker.waits = true → 0 < s.hWakeEvent → s.bSessionEnd = true → Reason s
  taken : ∀ x, s.worker = .endTest x → s.bSessionEnd = true → Reason s
  leaves : s.worker.leaves = true → Reason s

omit [DecidableEq Inst] in
/-- A step that leaves the worker and the reasons, and posts nothing. -/
theorem Reasoned.congr (h : Reasoned s) (hw : s'.worker = s.worker) (ht : s'.hWakeEvent = s.hWakeEvent)
    (hf : s'.bSessionEnd = s.bSessionEnd) (hr : Reason s → Reason s') : Reasoned s' where
  waits := by
    rw [hw, ht, hf]
    exact fun h1 h2 h3 => hr (h.waits h1 h2 h3)
  taken := by
    rw [hw, hf]
    exact fun x h1 h2 => hr (h.taken x h1 h2)
  leaves := by
    rw [hw]
    exact fun h1 => hr (h.leaves h1)

omit [DecidableEq Inst] in
/-- A step of a session that has a reason to end, or of no session. -/
theorem Reasoned.of (h : s.worker = .none ∨ Reason s) : Reasoned s where
  waits := fun hw _ _ => h.resolve_left (by rintro hn; rw [hn] at hw; cases hw)
  taken := fun x hw _ => h.resolve_left (by rintro hn; rw [hn] at hw; cases hw)
  leaves := fun hw => h.resolve_left (by rintro hn; rw [hn] at hw; cases hw)

/-- **Every step has a reason to end a session**, but for a `Start` over what an earlier one left. -/
theorem Reasoned.step (h : Reasoned s) (hi : Inv s) (hok : Fresh s a) (hs : step s a = some s') : Reasoned s' := by
  have hidle : ∀ {t : ClientWork Inst Caller}, t.worker.waits = false → t.worker.leaves = false →
      (∀ x, t.worker ≠ .endTest x) → Reasoned t := fun h1 h2 h3 =>
    ⟨fun hn => absurd (h1.symm.trans hn) (by simp), fun x hn => absurd hn (h3 x),
      fun hn => absurd (h2.symm.trans hn) (by simp)⟩
  cases act_some hs with
  | load ho => exact .of (.inl (hi.unthreaded (by rw [ho]; rfl)))
  | created _ => exact hidle rfl rfl (by simp)
  | unload _ => exact .of (.inr (.inr rfl))
  | unloadPost ho => exact .of (.inr (.inr (hi.quit (.inl ho))))
  | join _ _ => exact .of (.inl rfl)
  | loopTest _ =>
    cases hq : s.bQuit with
    | true => exact hidle (by simp [ClientPc.waits]) (by simp [ClientPc.leaves]) (by simp)
    | false => exact hidle (by simp [ClientPc.waits]) (by simp [ClientPc.leaves]) (by simp)
  | connect _ _ | connectFails _ | store _ | finish _ _ => exact hidle rfl rfl (by simp)
  | start _ _ =>
    refine ⟨fun _ ht hf => .inr (hok ht hf), by simp, fun hl => ?_⟩
    cases hl
  | register hw _ =>
    refine ⟨fun _ => h.waits (by rw [hw]; rfl), by simp, fun hl => ?_⟩
    cases hl
  | waitTest hw =>
    cases hq : s.bQuit with
    | true => exact .of (.inr (.inr rfl))
    | false =>
      refine ⟨fun _ ht hf => ?_, by simp, by simp [ClientPc.leaves]⟩
      have hr := h.waits (by rw [hw]; rfl) ht hf
      rwa [Reason, hq] at hr
  | wait hw ht =>
    refine ⟨by simp [ClientPc.waits], fun y _ hf => ?_, by simp [ClientPc.leaves]⟩
    exact h.waits (by rw [hw]; rfl) ht hf
  | endTest hw =>
    cases hf : s.bSessionEnd with
    | true => exact .of (.inr (h.taken _ hw hf))
    | false => exact ⟨by simp, by simp, by simp [ClientPc.leaves]⟩
  | unregister hw _ | stopped hw _ | clear hw _ => exact .of (.inr (h.leaves (by rw [hw]; rfl)))
  | endSession _ _ => exact .of (.inr (.inl rfl))
  | endPost he => exact .of (.inr (.inl (hi.ending (by rw [he]; simp)).2))
  | send hl =>
    rw [hi.call (hi.sender _ _ hl)]
    exact h
  | recv _ _ hx =>
    rw [hi.call hx]
    exact h
  | _ => exact h.congr rfl rfl rfl id

theorem reasoned_reach (h : (machine Inst Caller).ReachWhen Fresh s) : Inv s ∧ Reasoned s := by
  apply h.invariant (I := fun s => Inv s ∧ Reasoned s)
  · rintro _ ⟨mux, hmux, rfl⟩
    exact ⟨inv_new hmux, .of (.inl rfl)⟩
  · exact fun _ _ _ hi hok hs => ⟨hi.1.step hs, hi.2.step hi.1 hok hs⟩

/-- **What the others do**: a `Start` over a post and a flag of earlier sessions, with the mux thread out of `_MuxLock`,
can be followed by the end of the session with no `EndSession` in it and `_bQuit` not set. -/
theorem stale_session_ends (hi : Inv s) {x : Inst} (hw : s.worker = .starting x) (hx : ¬ Fresh s .start)
    (hmux : s.mux.pc.muxLocked = false) :
    ∃ t, (machine Inst Caller).After s t ∧ t.worker = .unregistering x ∧ ¬ Reason t := by
  simp only [Fresh, Classical.not_imp, Bool.not_eq_true] at hx
  obtain ⟨ht, hf, hq⟩ := hx
  have hp : s.mux.phase x = .idle := by
    rw [hi.phase x (hi.mine x (by rw [hw]; rfl)), hw]
    simp [ClientPc.trans, ClientPc.phase]
  obtain ⟨t, hrun⟩ : ∃ t, (machine Inst Caller).run s [.start, .register, .waitTest, .wait, .endTest] = some t ∧
      t.worker = .unregistering x ∧ t.ended = false ∧ t.bQuit = false := by
    simp [Machine.run, machine, ClientWork.step, hw, setMux, MuxState.step, hp, hmux, MuxState.setPhase,
      MuxState.setIgnore, hq, ht, hf]
  exact ⟨t, ⟨_, hrun.1⟩, hrun.2.1, by simp [Reason, hrun.2.2]⟩

/-- **Where no session starts over what an earlier one left**, a session ends only when `EndSession` was called in it or
`_bQuit` was set: when the worker is out of the loop that waits, and until it has deleted the transport. -/
theorem sessions_end_for_reason (h : (machine Inst Caller).ReachWhen Fresh s) (hl : s.worker.leaves = true) :
    s.ended = true ∨ s.bQuit = true :=
  (reasoned_reach h).2.leaves hl

/-- A session of transport `x` over descriptor `t` up to its wait. -/
def sessionRun (x : Nat) (t : SOCKET) : List (WorkStep Nat Nat) :=
  [.loopTest, .connect x t, .store, .start, .register, .waitTest]

/-- The mux thread's round that ends it. -/
def endRun (t : SOCKET) : List (WorkStep Nat Nat) :=
  [.mux .loopTest, .mux .cleaned, .mux .lock, .mux .fdSet, .mux .built,
  .mux (.select [t] []), .mux .relock, .mux .recvReady, .recv, .endSession, .endSuspend, .endPost, .mux .recvDone,
  .mux .dispatched]

/-- A session that `EndSession` ends, up to the end of its wait. -/
def endedRun : List (WorkStep Nat Nat) := [.mux (.openSocket 5), .mux (.openSocket 6), .load, .create true] ++
  sessionRun 0 5 ++ endRun 5 ++ [.wait, .endTest]

theorem sessions_end_for_reason_ended : ∃ s : ClientWork Nat Nat,
    (machine Nat Nat).runWhen Fresh (new (MuxState.start fun _ => false)) endedRun = some s ∧
    s.worker = .unregistering 0 ∧ (s.ended = true ∨ s.bQuit = true) := by
  obtain ⟨s, hs, hw⟩ := Option.map_eq_some_iff.1 (show ((machine Nat Nat).runWhen Fresh
    (new (MuxState.start fun _ => false)) endedRun).map (fun s => s.worker) = some (.unregistering 0) by decide)
  have hr : (machine Nat Nat).ReachWhen Fresh s := .runWhen (.init (init_new _)) hs
  exact ⟨s, hs, hw, sessions_end_for_reason hr (by rw [hw]; rfl)⟩

/-- The object is unloaded after an ended session, with its worker at the outer loop's test, loaded again and
connected. -/
def reloadedRun : List (WorkStep Nat Nat) := endedRun ++ [.unregister, .stopped, .clear, .finish, .unload, .loopTest,
  .unloadPost, .join, .fini, .load, .create true] ++ sessionRun 1 6 ++ [.wait, .endTest]

/-- **A session that ends for no reason of its own**: the post of `Unload` that no wait took, and the flag of a session
before it. -/
theorem session_ends_for_none : ∃ s : ClientWork Nat Nat, (machine Nat Nat).Reach s ∧ s.worker = .unregistering 1 ∧
    s.ended = false ∧ s.bQuit = false := by
  obtain ⟨s, hs, hw⟩ := Option.map_eq_some_iff.1 (show ((machine Nat Nat).run
    (new (MuxState.start fun _ => false)) reloadedRun).map (fun s => (s.worker, s.ended, s.bQuit)) =
      some (.unregistering 1, false, false) by decide)
  refine ⟨s, (Machine.Reach.init (init_new _)).run hs, congrArg Prod.fst hw, ?_, ?_⟩
  · exact congrArg (fun p => p.2.1) hw
  · exact congrArg (fun p => p.2.2) hw

end ClientWork

end DevMgr
