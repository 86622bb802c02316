import DevMgr.ClientWork
import DevMgr.MainJni
/-!
# JniService — the native calls around the message queue and the client

`main-jni.cpp` with its client: `nativeInit` starts the mux thread and the consumer of `gMsgRing`, `nativeConnect` loads
the client, and `nativeQuit` joins the consumer, destroys `ghEvent`, unloads the client and stops the mux thread, in
that order; a `nativeQuit` without `nativeInit` goes the same way with no thread to join.  `ProcessDbMsg` is called by
the client's work thread, from the transport's `Start` and `Stop`, and by the mux thread in `OnRecvReady`; each waits
for its call to return.

The machines of the queue (`jni`) and of the client run together.  `hasEvent` is whether `ghEvent` is initialised.  The
Java threads make one of these three calls at a time.
-/
namespace DevMgr

open Machines

/-- Where `nativeQuit` is, if anywhere, after it joined the consumer: before `sem_destroy`, before `Unload`, in it,
before `TransSockInst::Cleanup`, in it, or before `Destroy`. -/
inductive DownPc where
  | none
  | semDestroy
  | unload
  | unloading
  | cleanup
  | muxJoin
  | destroy
  deriving DecidableEq, Repr

structure JniService (Inst Caller : Type) where
  jni : MainJni
  client : ClientWork Inst Caller
  hasEvent : Bool
  down : DownPc

inductive ServiceStep (Inst Caller : Type) where
  | nativeInit
  | nativeConnect
  | setQuit
  | postQuit
  | join
  | quitAgain
  | semDestroy
  | unload
  | unloaded
  | cleanup
  | muxJoined
  | destroy
  | recvMsg (msgCode : DWORD) (szDevId : List BYTE)
  | queue (a : JniStep)
  | client (a : WorkStep Inst Caller)

namespace ClientWork

variable {Inst Caller : Type}

/-- `TransSockInst::Startup`. -/
def startup (s : ClientWork Inst Caller) : ClientWork Inst Caller :=
  { s with mux := { s.mux with bMuxQuit := false, hMuxEvent := 0, pc := .loopTest } }

/-- `Destroy`, and a new object. -/
def renew (s : ClientWork Inst Caller) : ClientWork Inst Caller :=
  { s with bQuit := false, bSessionEnd := false, hWakeEvent := 0 }

/-- A new object before any `Startup`. -/
def unstarted (opened : SOCKET → Bool) : ClientWork Inst Caller :=
  new { MuxState.start opened with pc := .left }

end ClientWork

namespace MuxState

variable {Inst : Type} [DecidableEq Inst]

omit [DecidableEq Inst] in
/-- A new mux thread, or none, between two rounds. -/
theorem Inv.restart {s : MuxState Inst} (h : Inv s) (b : Bool) (n : Nat) {pc : MuxPc Inst} (hr : pc.rest = [])
    (hf : pc.rdFds = none) : Inv { s with bMuxQuit := b, hMuxEvent := n, pc := pc } where
  socks := h.socks.congr (fun _ => .rfl) rfl rfl rfl rfl
  listed := ⟨h.listed.list, by rw [hr]; simp⟩
  round := ⟨h.round.known, h.round.inj, by simp [hf], by simp [hf]⟩

end MuxState

namespace ClientWork

variable {Inst Caller : Type} [DecidableEq Inst] {s s' : ClientWork Inst Caller} {a : WorkStep Inst Caller} {x : Inst}

theorem inv_unstarted (opened : SOCKET → Bool) : Inv (unstarted opened : ClientWork Inst Caller) :=
  { inv_new (Machine.Reach.init ⟨opened, rfl⟩) with
    mux := (MuxState.inv_start opened).restart false 0 rfl rfl }

theorem Inv.startup (h : Inv s) (hpc : s.mux.pc = .left) : Inv s.startup :=
  { h with
    mux := h.mux.restart false 0 rfl rfl
    ending := by
      intro hn
      have hr := (h.ending hn).1
      simp [recving, hpc] at hr }

theorem Inv.renew (h : Inv s) (ho : s.owner = .unloaded) : Inv s.renew :=
  { h with quit := by simp [ClientWork.renew, ho] }

/-- A member of a transport is called, or the failure of it recorded. -/
theorem call_frame (x : Inst) : (s.call x).worker = s.worker ∧ (s.call x).owner = s.owner ∧
    (s.call x).recving = s.recving := by
  unfold call
  split <;> exact ⟨rfl, rfl, rfl⟩

/-- The mux thread stays in the client's `OnRecvReady` until it returns from it. -/
theorem recving_step (hs : step s a = some s') (ha : a ≠ .mux .recvDone) (hr : s.recving = true) :
    s'.recving = true := by
  cases act_some hs with
  | mux _ hmux => exact recving_setMux hr hmux fun hb => ha (by rw [hb])
  | connect _ hmux => exact recving_mine (recving_setMux hr hmux (by simp))
  | start _ hmux | register _ hmux | unregister _ hmux | stopped _ hmux | finish _ hmux | endSuspend _ _ _ hmux =>
    exact recving_setMux (s := s) hr hmux (by simp)
  | send _ | recv _ _ _ => rwa [(call_frame _).2.2]
  | _ => exact hr

/-- The worker's next step alone takes it out of `OnStarted` and `OnStopped`. -/
theorem worker_calling (hi : Inv s) (hs : step s a = some s') (hw : s.worker = .registering x ∨ s.worker = .clearing x)
    (h1 : a ≠ .register) (h2 : a ≠ .clear) : s'.worker = s.worker := by
  have hne : ∀ w, w ≠ .registering x → w ≠ .clearing x → s.worker ≠ w := by
    rintro w k1 k2 rfl
    exact hw.elim k1 k2
  cases act_some hs with
  | register _ _ => exact absurd rfl h1
  | clear _ _ => exact absurd rfl h2
  | created ho => exact absurd (hi.unthreaded (by rw [ho]; rfl)) (hne _ (by simp) (by simp))
  | join _ hw' | loopTest hw' | connect hw' _ | connectFails hw' | store hw' | start hw' _ | waitTest hw' | wait hw' _
  | endTest hw' | unregister hw' _ | stopped hw' _ | finish hw' _ => exact absurd hw' (hne _ (by simp) (by simp))
  | send _ | recv _ _ _ => exact (call_frame _).1
  | _ => rfl

/-- A transport comes out of its first and last state by `Start` alone. -/
theorem phase_idle (hs : step s a = some s') (ha : a ≠ .start) (hp : s.worker.phase = .idle) :
    s'.worker.phase = .idle := by
  cases act_some hs with
  | start _ _ => exact absurd rfl ha
  | register hw _ | waitTest hw | wait hw _ | endTest hw | unregister hw _ | stopped hw _ =>
    rw [hw] at hp
    cases hp
  | loopTest _ => cases s.bQuit <;> rfl
  | created _ | join _ _ | connect _ _ | connectFails _ | store _ | clear _ _ | finish _ _ => rfl
  | send _ | recv _ _ _ => rwa [(call_frame _).1]
  | _ => exact hp

theorem start_some (hs : step s .start = some s') : ∃ x, s.worker = .starting x ∧ s'.worker = .registering x := by
  cases act_some hs with
  | start hw _ => exact ⟨_, hw, rfl⟩

theorem stopped_some (hs : step s .stopped = some s') : ∃ x, s.worker = .stopping x ∧ s'.worker = .clearing x := by
  cases act_some hs with
  | stopped hw _ => exact ⟨_, hw, rfl⟩

/-- The owner's part outside the two calls that take it further: a loaded object stays so or comes to `Fini`. -/
theorem owner_step (hs : step s a = some s') (h1 : a ≠ .load) (h2 : a ≠ .unload) :
    (s'.owner = .creating ∨ s'.owner.threaded = true → s.owner = .creating ∨ s.owner.threaded = true) ∧
      (s.owner = .unloaded → s'.owner = .unloaded) ∧
      (s.owner = .finishing → s'.owner = .unloaded ∨ s'.owner = .finishing) := by
  cases act_some hs with
  | load _ => exact absurd rfl h1
  | unload _ | unloadNone _ => exact absurd rfl h2
  | created ho | createFails ho => exact ⟨fun _ => .inl ho, by simp [ho], by simp [ho]⟩
  | unloadPost ho => exact ⟨fun _ => .inr (by rw [ho]; rfl), by simp [ho], by simp [ho]⟩
  | join ho _ => exact ⟨by simp [OwnerPc.threaded], by simp [ho], by simp [ho]⟩
  | fini ho => exact ⟨by simp [OwnerPc.threaded], fun _ => rfl, fun _ => .inl rfl⟩
  | send _ | recv _ _ _ =>
    rw [(call_frame _).2.1]
    exact ⟨id, id, .inr⟩
  | _ => exact ⟨id, id, .inr⟩

end ClientWork

namespace JniService

variable {Inst Caller : Type} [DecidableEq Inst]

/-- The steps of `ProcessDbMsg` and of the consumer. -/
def queueAllowed : JniStep → Bool
  | .push | .post | .loopTest | .wait | .ringTest | .pop | .onEvent => true
  | _ => false

/-- What the client's threads do by themselves; a thread goes on when its call of `ProcessDbMsg` has returned. -/
def clientAllowed (s : JniService Inst Caller) : WorkStep Inst Caller → Bool
  | .load | .unload | .mux .quit => false
  | .register | .clear => s.jni.producer == .idle
  | .mux .recvDone => !s.client.recving || s.jni.producer == .idle
  | .endSession | .recv => s.jni.producer == .idle
  | _ => true

/-- The call of `ProcessDbMsg` in a step of the client's work thread: `OnStarted`'s or `OnStopped`'s. -/
def called (jni : MainJni) : WorkStep Inst Caller → MainJni
  | .start => jni.testEmpty 0x1000 []
  | .stopped => jni.testEmpty 0x1001 []
  | _ => jni

def step (ndebug : Bool) (s : JniService Inst Caller) : ServiceStep Inst Caller → Option (JniService Inst Caller)
  | .nativeInit => if s.down = .none ∧ s.client.mux.pc = .left then
      (s.jni.step ndebug .nativeInit).map fun jni => { s with jni := jni, client := s.client.startup, hasEvent := true }
    else none
  | .nativeConnect => (s.jni.step ndebug .nativeConnect).bind fun jni =>
      (s.client.step .load).map fun client => { s with jni := jni, client := client }
  | .setQuit => if s.client.owner = .unloaded ∨ s.client.owner = .loaded then
      (s.jni.step ndebug .setQuit).map fun jni => { s with jni := jni } else none
  | .postQuit => (s.jni.step ndebug .postQuit).map fun jni => { s with jni := jni }
  | .join => (s.jni.step ndebug .join).map fun jni => { s with jni := jni, down := .semDestroy }
  | .quitAgain => if s.jni.service = .out ∧ s.down = .none then some { s with down := .semDestroy } else none
  | .semDestroy => if s.down = .semDestroy then some { s with hasEvent := false, down := .unload } else none
  | .unload => if s.down = .unload then
      (s.client.step .unload).map fun client => { s with client := client, down := .unloading } else none
  | .unloaded => if s.down = .unloading ∧ s.client.owner = .unloaded then
      some { s with jni := { s.jni with service := .out, connected := false }, down := .cleanup } else none
  | .cleanup => if s.down = .cleanup then
      if s.client.mux.pc = .left then some { s with down := .muxJoin }
      else (s.client.step (.mux .quit)).map fun client => { s with client := client, down := .muxJoin }
    else none
  | .muxJoined => if s.down = .muxJoin ∧ s.client.mux.pc = .left then some { s with down := .destroy } else none
  | .destroy => if s.down = .destroy then some { s with client := s.client.renew, down := .none } else none
  | .recvMsg msgCode szDevId => if s.client.recving = true ∧ s.client.endPc = .none ∧ s.jni.producer = .idle then
      some { s with jni := s.jni.testEmpty msgCode szDevId } else none
  | .queue a => if queueAllowed a then (s.jni.step ndebug a).map fun jni => { s with jni := jni } else none
  | .client a => if s.clientAllowed a then
      (s.client.step a).map fun client => { s with client := client, jni := called s.jni a } else none

/-- The process before any `nativeInit`. -/
def start (ndebug : Bool) (fresh : Nat → Option MsgItem) (opened : SOCKET → Bool) : JniService Inst Caller :=
  { jni := .start ndebug fresh, client := .unstarted opened, hasEvent := false, down := .none }

def machine (Inst Caller : Type) [DecidableEq Inst] (ndebug : Bool) :
    Machine (JniService Inst Caller) (ServiceStep Inst Caller) where
  init s := ∃ fresh opened, s = start ndebug fresh opened
  step := step ndebug

/-! ## What every run keeps -/

variable {ndebug : Bool} {s s' : JniService Inst Caller} {a : ServiceStep Inst Caller}

structure Inv (ndebug : Bool) (s : JniService Inst Caller) : Prop where
  client : s.client.Inv
  jni : (MainJni.machine ndebug).Reach s.jni
  calling : s.jni.producer ≠ .idle →
    (∃ x, s.client.worker = .registering x ∨ s.client.worker = .clearing x) ∨ s.client.recving = true
  connected : s.client.owner = .creating ∨ s.client.owner.threaded = true → s.jni.connected = true
  out : s.jni.service = .out → s.jni.connected = false
  event : s.jni.service ≠ .out → s.jni.service ≠ .quitJoined → s.hasEvent = true
  down : s.down ≠ .none → s.jni.service = .out ∨ s.jni.service = .quitJoined
  owner : s.jni.service = .out → s.client.owner = .unloaded ∨ s.client.owner = .finishing ∧ s.down = .unloading
  late : s.down = .cleanup ∨ s.down = .muxJoin ∨ s.down = .destroy → s.jni.service = .out

theorem inv_start (fresh : Nat → Option MsgItem) (opened : SOCKET → Bool) :
    Inv ndebug (start ndebug fresh opened : JniService Inst Caller) where
  client := ClientWork.inv_unstarted opened
  jni := .init (MainJni.init_start ndebug fresh)
  calling := by simp [start, MainJni.start]
  connected := by simp [start, ClientWork.unstarted, ClientWork.new, OwnerPc.threaded]
  out := fun _ => rfl
  event := by simp [start, MainJni.start]
  down := by simp [start]
  owner := fun _ => .inl rfl
  late := by simp [start]

theorem Inv.reach (h : Inv ndebug s) {b : JniStep} {jni : MainJni} (hs : s.jni.step ndebug b = some jni) :
    (MainJni.machine ndebug).Reach jni :=
  Machine.Reach.step h.jni (show (MainJni.machine ndebug).step s.jni b = some jni from hs)

/-- A call of `ProcessDbMsg` finds no other call in progress, and the client connected. -/
theorem Inv.testEmpty (h : Inv ndebug s) (hp : s.jni.producer = .idle) (hw : s.client.worker ≠ .none) (msgCode : DWORD)
    (szDevId : List BYTE) : (MainJni.machine ndebug).Reach (s.jni.testEmpty msgCode szDevId) := by
  have hc : s.jni.connected = true := h.connected (.inr (h.client.thread.2 hw))
  exact h.jni.step (a := .testEmpty msgCode szDevId) (if_pos ⟨hc, hp⟩)

/-- **The work thread and the mux thread never call `ProcessDbMsg` at once.** -/
theorem Inv.apart (h : Inv ndebug s) {x : Inst} (hw : s.client.worker = .starting x ∨ s.client.worker = .stopping x) :
    s.jni.producer = .idle := by
  by_contra hn
  rcases h.calling hn with ⟨y, hy | hy⟩ | hr
  · rcases hw with hw | hw <;> rw [hw] at hy <;> cases hy
  · rcases hw with hw | hw <;> rw [hw] at hy <;> cases hy
  · obtain ⟨y, -, hreg, -⟩ := h.client.session hr
    rcases hw with hw | hw <;> rw [hw] at hreg <;> cases hreg

omit [DecidableEq Inst] in
theorem called_other (jni : MainJni) {b : WorkStep Inst Caller} (h1 : b ≠ .start) (h2 : b ≠ .stopped) :
    called jni b = jni := by
  cases b <;> first | rfl | exact absurd rfl h1 | exact absurd rfl h2

/-- **A step of the client's threads** begins a call of `ProcessDbMsg` where none is, or leaves the one in progress. -/
theorem Inv.calls (h : Inv ndebug s) {b : WorkStep Inst Caller} {client : ClientWork Inst Caller}
    (hb : s.clientAllowed b = true) (hs : s.client.step b = some client) :
    (MainJni.machine ndebug).Reach (called s.jni b) ∧ ((called s.jni b).producer ≠ .idle →
      (∃ x, client.worker = .registering x ∨ client.worker = .clearing x) ∨ client.recving = true) := by
  by_cases hstart : b = .start
  · subst hstart
    obtain ⟨x, hw, hw'⟩ := ClientWork.start_some hs
    exact ⟨h.testEmpty (h.apart (.inl hw)) (by simp [hw]) _ _, fun _ => .inl ⟨x, .inl hw'⟩⟩
  by_cases hstop : b = .stopped
  · subst hstop
    obtain ⟨x, hw, hw'⟩ := ClientWork.stopped_some hs
    exact ⟨h.testEmpty (h.apart (.inr hw)) (by simp [hw]) _ _, fun _ => .inl ⟨x, .inr hw'⟩⟩
  rw [called_other _ hstart hstop]
  refine ⟨h.jni, fun hn => ?_⟩
  have hwait : ∀ b', s.clientAllowed b' = (s.jni.producer == .idle) → b ≠ b' := by
    rintro b' hb' rfl
    rw [hb', beq_iff_eq] at hb
    exact hn hb
  rcases h.calling hn with ⟨x, hx⟩ | hr
  · left
    rw [ClientWork.worker_calling h.client hs hx (hwait _ rfl) (hwait _ rfl)]
    exact ⟨x, hx⟩
  · right
    refine ClientWork.recving_step hs (hwait _ ?_) hr
    simp [clientAllowed, hr]

theorem Inv.idle (h : Inv ndebug s) (hw : s.client.worker = .none) : s.jni.producer = .idle := by
  by_contra hn
  rcases h.calling hn with ⟨y, hy | hy⟩ | hr
  · rw [hw] at hy
    cases hy
  · rw [hw] at hy
    cases hy
  · obtain ⟨y, ht, -⟩ := h.client.session hr
    rw [hw] at ht
    cases ht

/-- What `ProcessDbMsg` and the consumer leave. -/
theorem queue_frame {j j' : MainJni} {b : JniStep} (hs : MainJni.step ndebug j b = some j')
    (hb : queueAllowed b = true) :
    j'.service = j.service ∧ j'.connected = j.connected ∧ (j'.producer ≠ .idle → j.producer ≠ .idle) := by
  cases b with
  | push =>
    simp only [MainJni.step] at hs
    split at hs
    · rename_i bSignal m hp
      cases hs
      have hframe : (j.push ndebug bSignal m).service = j.service ∧
          (j.push ndebug bSignal m).connected = j.connected := by
        unfold MainJni.push
        split
        · exact ⟨rfl, rfl⟩
        · split <;> exact ⟨rfl, rfl⟩
      exact ⟨hframe.1, hframe.2, fun _ => by rw [hp]; simp⟩
    · cases hs
  | post =>
    simp only [MainJni.step] at hs
    split at hs
    · cases hs
      exact ⟨rfl, rfl, fun hn => absurd rfl hn⟩
    · cases hs
  | pop =>
    obtain ⟨-, rfl⟩ := guard_some hs
    unfold MainJni.pop
    split <;> exact ⟨rfl, rfl, id⟩
  | loopTest | wait | ringTest =>
    obtain ⟨-, rfl⟩ := guard_some hs
    exact ⟨rfl, rfl, id⟩
  | onEvent =>
    simp only [MainJni.step] at hs
    split at hs
    · cases hs
      exact ⟨rfl, rfl, id⟩
    · cases hs
  | _ => cases hb

/-- **Every step keeps the calls apart**, and is a step of the queue's machine or leaves it. -/
theorem Inv.step (h : Inv ndebug s) (hs : step ndebug s a = some s') : Inv ndebug s' := by
  cases a with
  | nativeInit =>
    simp only [JniService.step] at hs
    split at hs
    · rename_i hg
      obtain ⟨jni, hjni, rfl⟩ := Option.map_eq_some_iff.1 hs
      have hj := h.reach hjni
      obtain ⟨hout, rfl⟩ := guard_some hjni
      have ho : s.client.owner = .unloaded := (h.owner hout).resolve_right fun hn => by simp [hg.1] at hn
      refine { h with client := h.client.startup hg.2, jni := hj, calling := ?_, connected := ?_, out := by simp
                      event := fun _ _ => rfl, down := fun hn => absurd hg.1 hn, owner := by simp, late := ?_ }
      · exact fun hn => absurd (h.idle (h.client.unthreaded (by rw [ho]; rfl))) hn
      · simp [ClientWork.startup, ho, OwnerPc.threaded]
      · simp [hg.1]
    · cases hs
  | nativeConnect =>
    obtain ⟨jni, hjni, hs⟩ := Option.bind_eq_some_iff.1 hs
    obtain ⟨client, hclient, rfl⟩ := Option.map_eq_some_iff.1 hs
    have hj := h.reach hjni
    obtain ⟨hlive, rfl⟩ := guard_some hjni
    have hc := h.client.step hclient
    obtain ⟨hw, rfl⟩ := guard_some hclient
    exact { h with
      client := hc, jni := hj, connected := fun _ => rfl, out := by simp [hlive], owner := by simp [hlive] }
  | setQuit =>
    simp only [JniService.step] at hs
    split at hs
    · obtain ⟨jni, hjni, rfl⟩ := Option.map_eq_some_iff.1 hs
      have hj := h.reach hjni
      obtain ⟨hlive, rfl⟩ := guard_some hjni
      have hd : s.down = .none := by
        by_contra hn
        simpa [hlive] using h.down hn
      exact { h with jni := hj, out := by simp, event := fun _ _ => h.event (by simp [hlive]) (by simp [hlive])
                     down := fun hn => absurd hd hn, owner := by simp, late := by simp [hd] }
    · cases hs
  | postQuit =>
    obtain ⟨jni, hjni, rfl⟩ := Option.map_eq_some_iff.1 hs
    have hj := h.reach hjni
    obtain ⟨hlive, rfl⟩ := guard_some hjni
    have hd : s.down = .none := by
      by_contra hn
      simpa [hlive] using h.down hn
    exact { h with jni := hj, out := by simp, event := fun _ _ => h.event (by simp [hlive]) (by simp [hlive])
                   down := fun hn => absurd hd hn, owner := by simp, late := by simp [hd] }
  | join =>
    obtain ⟨jni, hjni, rfl⟩ := Option.map_eq_some_iff.1 hs
    have hj := h.reach hjni
    obtain ⟨hlive, rfl⟩ := guard_some hjni
    exact { h with jni := hj, out := by simp, event := by simp, down := by simp, owner := by simp, late := by simp }
  | quitAgain =>
    obtain ⟨hg, rfl⟩ := guard_some hs
    have ho : s.client.owner = .unloaded := (h.owner hg.1).resolve_right fun hn => by simp [hg.2] at hn
    exact { h with down := fun _ => .inl hg.1, owner := fun _ => .inl ho, late := by simp }
  | semDestroy =>
    obtain ⟨hg, rfl⟩ := guard_some hs
    have hd := h.down (by simp [hg])
    refine { h with event := fun h1 h2 => ?_, down := fun _ => hd, owner := fun hout => .inl ?_, late := by simp }
    · exact absurd hd (by simp [h1, h2])
    · exact (h.owner hout).resolve_right fun hn => by simp [hg] at hn
  | unload =>
    simp only [JniService.step] at hs
    split at hs
    · rename_i hg
      obtain ⟨client, hclient, rfl⟩ := Option.map_eq_some_iff.1 hs
      have hc := h.client.step hclient
      have hd := h.down (by simp [hg])
      cases ClientWork.act_some hclient with
      | unload ho =>
        refine { h with client := hc, down := fun _ => hd, connected := ?_, owner := fun hout => ?_, late := by simp }
        · exact fun _ => h.connected (.inr (by rw [ho]; rfl))
        · have := h.owner hout
          simp [ho] at this
      | unloadNone _ =>
        exact { h with client := hc, down := fun _ => hd, connected := by simp [OwnerPc.threaded]
                       owner := fun _ => .inr ⟨rfl, rfl⟩, late := by simp }
    · cases hs
  | unloaded =>
    obtain ⟨hg, rfl⟩ := guard_some hs
    have hidle := h.idle (h.client.unthreaded (by rw [hg.2]; rfl))
    have hj : (MainJni.machine ndebug).Reach { s.jni with service := .out, connected := false } := by
      rcases h.down (by simp [hg.1]) with hout | hjoined
      · have : { s.jni with service := .out, connected := false } = s.jni := by
          rw [← hout, ← h.out hout]
        rw [this]
        exact h.jni
      · exact h.reach (b := .unload) (if_pos ⟨hjoined, hidle⟩)
    exact { h with jni := hj, calling := fun hn => absurd hidle hn, connected := by simp [hg.2, OwnerPc.threaded]
                   out := fun _ => rfl, event := by simp, down := fun _ => .inl rfl, owner := fun _ => .inl hg.2
                   late := fun _ => rfl }
  | cleanup =>
    simp only [JniService.step] at hs
    split at hs
    · rename_i hg
      have hout := h.late (.inl hg)
      have ho := (h.owner hout).resolve_right fun hn => by simp [hg] at hn
      split at hs
      · cases hs
        exact { h with down := fun _ => .inl hout, owner := fun _ => .inl ho, late := fun _ => hout }
      · obtain ⟨client, hclient, rfl⟩ := Option.map_eq_some_iff.1 hs
        have hc := h.client.step hclient
        obtain ⟨-, hmux⟩ := ClientWork.act_some hclient
        refine { h with client := hc, calling := fun hn => ?_, down := fun _ => .inl hout, owner := fun _ => .inl ho
                        late := fun _ => hout }
        exact (h.calling hn).imp_right fun hr => ClientWork.recving_setMux hr hmux (by simp)
    · cases hs
  | muxJoined =>
    obtain ⟨hg, rfl⟩ := guard_some hs
    have hout := h.late (.inr (.inl hg.1))
    have ho := (h.owner hout).resolve_right fun hn => by simp [hg.1] at hn
    exact { h with down := fun _ => .inl hout, owner := fun _ => .inl ho, late := fun _ => hout }
  | destroy =>
    obtain ⟨hg, rfl⟩ := guard_some hs
    have hout := h.late (.inr (.inr hg))
    have ho := (h.owner hout).resolve_right fun hn => by simp [hg] at hn
    exact { h with client := h.client.renew ho, down := by simp, owner := fun _ => .inl ho, late := by simp }
  | recvMsg msgCode szDevId =>
    obtain ⟨hg, rfl⟩ := guard_some hs
    have hw : s.client.worker ≠ .none := by
      obtain ⟨x, ht, -⟩ := h.client.session hg.1
      intro hn
      rw [hn] at ht
      cases ht
    exact { h with jni := h.testEmpty hg.2.2 hw msgCode szDevId, calling := fun _ => .inr hg.1 }
  | queue b =>
    simp only [JniService.step] at hs
    split at hs
    · rename_i hb
      obtain ⟨jni, hjni, rfl⟩ := Option.map_eq_some_iff.1 hs
      obtain ⟨h1, h2, h3⟩ := queue_frame hjni hb
      exact {
        client := h.client
        jni := h.reach hjni
        calling := fun hn => h.calling (h3 hn)
        connected := fun ho => h2.trans (h.connected ho)
        out := fun ho => h2.trans (h.out (h1 ▸ ho))
        event := fun k1 k2 => h.event (h1 ▸ k1) (h1 ▸ k2)
        down := fun hn => by rw [h1]; exact h.down hn
        owner := fun hout => h.owner (h1 ▸ hout)
        late := fun hl => h1.trans (h.late hl) }
    · cases hs
  | client b =>
    simp only [JniService.step] at hs
    split at hs
    · rename_i hb
      obtain ⟨client, hclient, rfl⟩ := Option.map_eq_some_iff.1 hs
      obtain ⟨ho1, ho2, ho3⟩ := ClientWork.owner_step hclient (by rintro rfl; cases hb) (by rintro rfl; cases hb)
      have hframe : (called s.jni b).service = s.jni.service ∧ (called s.jni b).connected = s.jni.connected := by
        cases b <;> exact ⟨rfl, rfl⟩
      exact {
        client := h.client.step hclient
        jni := (h.calls hb hclient).1
        calling := (h.calls hb hclient).2
        connected := fun ho => hframe.2.trans (h.connected (ho1 ho))
        out := fun hout => hframe.2.trans (h.out (hframe.1 ▸ hout))
        event := fun k1 k2 => h.event (hframe.1 ▸ k1) (hframe.1 ▸ k2)
        down := fun hn => by rw [hframe.1]; exact h.down hn
        owner := fun hout => (h.owner (hframe.1 ▸ hout)).elim (fun ho => .inl (ho2 ho)) fun ho =>
          (ho3 ho.1).imp_right fun hf => ⟨hf, ho.2⟩
        late := fun hl => hframe.1.trans (h.late hl) }
    · cases hs

/-! ## The consumer and the calls -/

/-- The consumer thread has left its loop, or there is none. -/
def Gone (s : JniService Inst Caller) : Prop := s.jni.worker = .none ∨ s.jni.worker = .left

instance (s : JniService Inst Caller) : Decidable (Gone s) := inferInstanceAs (Decidable (_ ∨ _))

/-- The call will post `ghEvent`. -/
def signals : ProducerPc → Bool
  | .idle => false
  | .tested bSignal _ | .pushed bSignal => bSignal

/-- No transport is between its `Start` and its `Stop` and no call has a push or a post to come; or the ring is full and
no post is to come. -/
def Settled (s : JniService Inst Caller) : Prop :=
  s.client.worker.phase = .idle ∧ (s.jni.producer = .idle ∨ s.jni.producer = .pushed false) ∨
    s.jni.gMsgRing.isFull = true ∧ signals s.jni.producer = false

instance (s : JniService Inst Caller) : Decidable (Settled s) := inferInstanceAs (Decidable (_ ∨ _))

def consumerTests : ServiceStep Inst Caller → Bool
  | .queue .loopTest => true
  | _ => false

def starts : ServiceStep Inst Caller → Bool
  | .client .start => true
  | _ => false

/-- **A step that leaves nobody to call for a consumer that is gone**: not the consumer leaving its loop before the
calls have settled, nor the `Start` of a transport when it is gone, unless the ring is full. -/
def Parted (s : JniService Inst Caller) (a : ServiceStep Inst Caller) : Prop :=
  (consumerTests a = true → s.jni.gbQuit = true → Settled s) ∧
    (starts a = true → Gone s → s.jni.gMsgRing.isFull = true)

instance (s : JniService Inst Caller) (a : ServiceStep Inst Caller) : Decidable (Parted s a) :=
  inferInstanceAs (Decidable (_ ∧ _))

theorem Inv.full (h : Inv ndebug s) (hf : s.jni.gMsgRing.isFull = true) : s.jni.gMsgRing.isEmpty = false := by
  obtain ⟨xs, hq⟩ := MainJni.queued_reach h.jni
  rw [hq.holds.isFull, decide_eq_true_eq, hq.size] at hf
  rw [← Bool.not_eq_true, hq.isEmpty]
  rintro rfl
  cases hf

/-- A call that begins over a full ring. -/
theorem settled_testEmpty (h : Inv ndebug s) (hf : s.jni.gMsgRing.isFull = true) (msgCode : DWORD)
    (szDevId : List BYTE) (client : ClientWork Inst Caller) :
    Settled { s with jni := s.jni.testEmpty msgCode szDevId, client := client } :=
  .inr ⟨hf, h.full hf⟩

omit [DecidableEq Inst] in
/-- A call in a session, with the calls settled otherwise, finds the ring full. -/
theorem Settled.busy (h : Settled s) (hp : s.client.worker.phase ≠ .idle) : s.jni.gMsgRing.isFull = true :=
  (h.resolve_left fun hn => hp hn.1).1

omit [DecidableEq Inst] in
/-- Of `ProcessDbMsg` and the consumer's steps, only the consumer's last one can leave the calls unsettled. -/
theorem settled_queue (hset : Gone s → Settled s) {b : JniStep} {jni : MainJni} (hb : queueAllowed b = true)
    (hs : s.jni.step ndebug b = some jni) (hok : Parted s (.queue b : ServiceStep Inst Caller))
    (hg : Gone { s with jni := jni }) : Settled { s with jni := jni } := by
  cases b with
  | push =>
    simp only [MainJni.step] at hs
    split at hs
    · rename_i bSignal m hp
      cases hs
      have hwork : (s.jni.push ndebug bSignal m).worker = s.jni.worker := by
        unfold MainJni.push
        split
        · rfl
        · split <;> rfl
      have hold : Gone s := by
        unfold Gone at hg ⊢
        rwa [← hwork]
      rcases hset hold with ⟨-, hn⟩ | ⟨hf, hsig⟩
      · simp [hp] at hn
      · right
        rw [MainJni.push, if_pos hf]
        rw [hp] at hsig
        exact ⟨hf, hsig⟩
    · cases hs
  | post =>
    simp only [MainJni.step] at hs
    split at hs
    · cases hs
      exact (hset hg).imp (fun hn => ⟨hn.1, .inl rfl⟩) fun hn => ⟨hn.1, rfl⟩
    · cases hs
  | loopTest =>
    obtain ⟨hw, rfl⟩ := guard_some hs
    cases hq : s.jni.gbQuit with
    | true => exact hok.1 rfl hq
    | false => simp [Gone, hq] at hg
  | wait =>
    obtain ⟨-, rfl⟩ := guard_some hs
    simp [Gone] at hg
  | ringTest =>
    obtain ⟨-, rfl⟩ := guard_some hs
    cases he : s.jni.gMsgRing.isEmpty <;> simp [Gone, he] at hg
  | pop =>
    obtain ⟨hw, rfl⟩ := guard_some hs
    unfold MainJni.pop at hg
    split at hg
    · simp [Gone] at hg
    · simp [Gone, hw] at hg
  | onEvent =>
    simp only [MainJni.step] at hs
    split at hs
    · cases hs
      simp [Gone] at hg
    · cases hs
  | _ => cases hb

/-- **Every allowed step keeps the calls settled** while the consumer is gone. -/
theorem settled_step (h : Inv ndebug s) (hset : Gone s → Settled s) (hok : Parted s a)
    (hs : step ndebug s a = some s') : Gone s' → Settled s' := by
  cases a with
  | nativeInit =>
    simp only [JniService.step] at hs
    split at hs
    · obtain ⟨jni, hjni, rfl⟩ := Option.map_eq_some_iff.1 hs
      obtain ⟨-, rfl⟩ := guard_some hjni
      intro hg
      simp [Gone] at hg
    · cases hs
  | nativeConnect =>
    obtain ⟨jni, hjni, hs⟩ := Option.bind_eq_some_iff.1 hs
    obtain ⟨client, hclient, rfl⟩ := Option.map_eq_some_iff.1 hs
    obtain ⟨-, rfl⟩ := guard_some hjni
    obtain ⟨-, rfl⟩ := guard_some hclient
    exact hset
  | setQuit =>
    simp only [JniService.step] at hs
    split at hs
    · obtain ⟨jni, hjni, rfl⟩ := Option.map_eq_some_iff.1 hs
      obtain ⟨-, rfl⟩ := guard_some hjni
      exact hset
    · cases hs
  | postQuit =>
    obtain ⟨jni, hjni, rfl⟩ := Option.map_eq_some_iff.1 hs
    obtain ⟨-, rfl⟩ := guard_some hjni
    exact hset
  | join =>
    obtain ⟨jni, hjni, rfl⟩ := Option.map_eq_some_iff.1 hs
    obtain ⟨hg, rfl⟩ := guard_some hjni
    exact fun _ => hset (.inr hg.2)
  | unload =>
    simp only [JniService.step] at hs
    split at hs
    · obtain ⟨client, hclient, rfl⟩ := Option.map_eq_some_iff.1 hs
      cases ClientWork.act_some hclient with
      | unload _ | unloadNone _ => exact hset
    · cases hs
  | cleanup =>
    simp only [JniService.step] at hs
    split at hs
    · split at hs
      · cases hs
        exact hset
      · obtain ⟨client, hclient, rfl⟩ := Option.map_eq_some_iff.1 hs
        obtain ⟨-, -⟩ := ClientWork.act_some hclient
        exact hset
    · cases hs
  | quitAgain | semDestroy | unloaded | muxJoined | destroy =>
    obtain ⟨-, rfl⟩ := guard_some hs
    exact hset
  | recvMsg msgCode szDevId =>
    obtain ⟨hr, rfl⟩ := guard_some hs
    intro hg
    obtain ⟨x, -, hreg, -⟩ := h.client.session hr.1
    exact settled_testEmpty h ((hset hg).busy (by simp [hreg])) msgCode szDevId s.client
  | queue b =>
    simp only [JniService.step] at hs
    split at hs
    · rename_i hb
      obtain ⟨jni, hjni, rfl⟩ := Option.map_eq_some_iff.1 hs
      exact settled_queue hset hb hjni hok
    · cases hs
  | client b =>
    simp only [JniService.step] at hs
    split at hs
    · obtain ⟨client, hclient, rfl⟩ := Option.map_eq_some_iff.1 hs
      by_cases hstart : b = .start
      · subst hstart
        exact fun hg => settled_testEmpty h (hok.2 rfl hg) 0x1000 [] client
      by_cases hstop : b = .stopped
      · subst hstop
        obtain ⟨x, hw, -⟩ := ClientWork.stopped_some hclient
        exact fun hg => settled_testEmpty h ((hset hg).busy (by simp [hw, ClientPc.phase])) 0x1001 [] client
      rw [called_other _ hstart hstop]
      intro hg
      exact (hset hg).imp_left fun hn => ⟨ClientWork.phase_idle hclient hstart hn.1, hn.2⟩
    · cases hs

theorem settled_reach (h : (machine Inst Caller ndebug).ReachWhen Parted s) : Inv ndebug s ∧ (Gone s → Settled s) := by
  apply h.invariant (I := fun s => Inv ndebug s ∧ (Gone s → Settled s))
  · rintro _ ⟨fresh, opened, rfl⟩
    exact ⟨inv_start fresh opened, fun _ => .inl ⟨rfl, .inl rfl⟩⟩
  · exact fun _ _ _ hi hok hs => ⟨hi.1.step hs, settled_step hi.1 hi.2 hok hs⟩

/-- **Where nobody is left to call when the consumer leaves**: `ProcessDbMsg` posts `ghEvent` while it is initialised,
and pushes while the consumer thread exists. -/
theorem no_signal_after_teardown (h : (machine Inst Caller ndebug).ReachWhen Parted s) :
    (s.jni.producer = .pushed true → s.hasEvent = true) ∧
      ∀ bSignal m, s.jni.producer = .tested bSignal m → s.jni.gMsgRing.isFull = false → ¬ Gone s := by
  obtain ⟨hi, hset⟩ := settled_reach h
  constructor
  · intro hp
    have hthere : ¬ Gone s := by
      intro hg
      rcases hset hg with ⟨-, hn⟩ | ⟨-, hn⟩ <;> simp [hp, signals] at hn
    obtain ⟨xs, hq⟩ := MainJni.queued_reach hi.jni
    refine hi.event (fun hout => ?_) fun hjoined => ?_
    · exact hthere (.inl (hq.gone (.inl hout)))
    · exact hthere (.inl (hq.gone (.inr hjoined)))
  · intro bSignal m hp hf hg
    rcases hset hg with ⟨-, hn⟩ | ⟨hfull, -⟩
    · simp [hp] at hn
    · rw [hf] at hfull
      cases hfull

/-- The service up to the call in the `OnStarted` of transport `x`, over descriptor `t`. -/
def startedRun (x : Nat) (t : SOCKET) : List (ServiceStep Nat Nat) := [.nativeInit, .nativeConnect,
  .client (.create true), .client (.mux (.openSocket t)), .queue .loopTest, .client .loopTest, .client (.connect x t),
  .client .store, .client .start, .queue .push]

/-- The mux thread ends the session, and the transport is stopped and deleted. -/
def endedRun (t : SOCKET) : List (ServiceStep Nat Nat) := [.queue .post, .client .register, .client .waitTest] ++
  ([.loopTest, .cleaned, .lock, .fdSet, .built, .select [t] [], .relock, .recvReady] : List (MuxStep Nat)).map
    (fun a => .client (.mux a)) ++
  [.client .endSession, .client .endSuspend, .client .endPost, .client (.mux .recvDone), .client (.mux .dispatched),
  .client .wait, .client .endTest, .client .unregister, .client .stopped, .queue .push, .queue .post, .client .clear,
  .client .finish]

/-- The consumer hands on the two messages and leaves, and `nativeQuit` joins it and destroys `ghEvent`. -/
def joinedRun : List (ServiceStep Nat Nat) := [.queue .wait, .queue .ringTest, .queue .pop, .queue .onEvent,
  .queue .ringTest, .queue .pop, .queue .onEvent, .queue .ringTest, .queue .loopTest, .setQuit, .postQuit,
  .queue .wait, .queue .ringTest, .queue .loopTest, .join, .semDestroy]

/-- The rest of `nativeQuit`. -/
def unloadedRun : List (ServiceStep Nat Nat) := [.unload, .client .loopTest, .client .unloadPost, .client .join,
  .client .fini, .unloaded, .cleanup, .client (.mux .loopTest), .muxJoined, .client (.mux .cleanup), .destroy]

/-- A service whose session ended, as far as `sem_destroy` in its `nativeQuit`. -/
def quitRun : List (ServiceStep Nat Nat) := startedRun 0 5 ++ endedRun 5 ++ joinedRun

/-- After `sem_destroy` no post is to come, and in the next service there is one and `ghEvent` is there for it. -/
theorem no_signal_after_teardown_restarted :
    (∃ s : JniService Nat Nat,
      (machine Nat Nat false).runWhen Parted (start false (fun _ => none) fun _ => false) quitRun = some s ∧
      s.hasEvent = false ∧ s.jni.producer ≠ .pushed true) ∧
    ∃ s : JniService Nat Nat, (machine Nat Nat false).runWhen Parted (start false (fun _ => none) fun _ => false)
        (quitRun ++ unloadedRun ++ startedRun 1 6) = some s ∧
      s.jni.producer = .pushed true ∧ s.hasEvent = true := by
  constructor
  · obtain ⟨s, hs, hw⟩ := Option.map_eq_some_iff.1 (show ((machine Nat Nat false).runWhen Parted
      (start false (fun _ => none) fun _ => false) quitRun).map (fun s => s.hasEvent) = some false by decide)
    have hr : (machine Nat Nat false).ReachWhen Parted s := .runWhen (.init ⟨_, _, rfl⟩) hs
    refine ⟨s, hs, hw, fun hp => ?_⟩
    rw [(no_signal_after_teardown hr).1 hp] at hw
    cases hw
  · obtain ⟨s, hs, hw⟩ := Option.map_eq_some_iff.1 (show ((machine Nat Nat false).runWhen Parted
      (start false (fun _ => none) fun _ => false) (quitRun ++ unloadedRun ++ startedRun 1 6)).map
        (fun s => s.jni.producer) = some (.pushed true) by decide)
    have hr : (machine Nat Nat false).ReachWhen Parted s := .runWhen (.init ⟨_, _, rfl⟩) hs
    exact ⟨s, hs, hw, (no_signal_after_teardown hr).1 hw⟩

/-- The message is handed on, and `nativeQuit` comes while the transport is registered, as far as the call in its
`OnStopped`. -/
def connectedRun : List (ServiceStep Nat Nat) := startedRun 0 5 ++ [.queue .post, .client .register, .client .waitTest,
  .queue .wait, .queue .ringTest, .queue .pop, .queue .onEvent, .queue .ringTest, .queue .loopTest, .setQuit, .postQuit,
  .queue .wait, .queue .ringTest, .queue .loopTest, .join, .semDestroy, .unload, .client .unloadPost, .client .wait,
  .client .endTest, .client .waitTest, .client .unregister, .client .stopped]

/-- **A push with no consumer, and a post of a destroyed semaphore**: `nativeQuit` with a session connected. -/
theorem signal_after_teardown :
    (∃ s : JniService Nat Nat, (machine Nat Nat false).Reach s ∧
      s.jni.producer = .tested true ⟨0x1001, strncpy [] maxDevIdLen⟩ ∧
      s.jni.gMsgRing.isFull = false ∧ s.jni.worker = .none) ∧
    ∃ s : JniService Nat Nat, (machine Nat Nat false).Reach s ∧ s.jni.producer = .pushed true ∧ s.hasEvent = false := by
  have h0 : (machine Nat Nat false).Reach (start false (fun _ => none) fun _ => false) := .init ⟨_, _, rfl⟩
  constructor
  · obtain ⟨s, hs, hw⟩ := Option.map_eq_some_iff.1 (show ((machine Nat Nat false).run
      (start false (fun _ => none) fun _ => false) connectedRun).map
        (fun s => (s.jni.producer, s.jni.gMsgRing.isFull, s.jni.worker)) =
          some (.tested true ⟨0x1001, strncpy [] maxDevIdLen⟩, false, .none) by decide)
    exact ⟨s, h0.run hs, congrArg Prod.fst hw, congrArg (fun p => p.2.1) hw, congrArg (fun p => p.2.2) hw⟩
  · obtain ⟨s, hs, hw⟩ := Option.map_eq_some_iff.1 (show ((machine Nat Nat false).run
      (start false (fun _ => none) fun _ => false) (connectedRun ++ [.queue .push])).map
        (fun s => (s.jni.producer, s.hasEvent)) = some (.pushed true, false) by decide)
    exact ⟨s, h0.run hs, congrArg Prod.fst hw, congrArg Prod.snd hw⟩

end JniService

end DevMgr
