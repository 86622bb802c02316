import DevMgr.TransSockInst
/-!
# MuxSleep — when the mux thread blocks

`MuxThread` blocks in `sem_wait(&_hMuxEvent)` when its loop over `_MuxList` took no descriptor.  `Register` posts when
the list was empty, a destructor's `CloseSocket` always, and `Resume` never.  So the thread is not woken for an instance
registered into a list of suspended ones, nor for one that is resumed; and `nfds` does not tell descriptor 0 from none.
-/
namespace DevMgr
namespace MuxState

open Machines

variable {Inst : Type} {s s' : MuxState Inst}

/-- Nothing has posted `_hMuxEvent`, nor is about to. -/
def Unposted (s : MuxState Inst) : Prop := s.hMuxEvent = 0 ∧ s.posts = 0

/-- **The thread does not sleep on a live connection**: while it is blocked and no post is due, all of `_MuxList` is
ignored. -/
def Attended (s : MuxState Inst) : Prop := s.pc = .waiting → Unposted s → ∀ x ∈ s.muxList, s.bIgnore x = true

/-- The loop over `_MuxList` is over with `nfds` 0. -/
def found0 : MuxPc Inst → Bool
  | .building [] _ 0 => true
  | _ => false

/-- **A step that leaves no connection unattended.**  While the thread is blocked and no post is due, nothing that is
not ignored is registered behind other instances, and nothing in `_MuxList` is resumed; and when the thread blocks, what
is not ignored then was so when the loop came to it, and its descriptor is not 0. -/
def Attends (s : MuxState Inst) : MuxStep Inst → Prop
  | .register x => s.pc = .waiting → Unposted s → s.muxList = [] ∨ s.bIgnore x = true
  | .resume x => s.pc = .waiting → Unposted s → x ∉ s.muxList
  | .built => found0 s.pc = true → Unposted s →
      ∀ x ∈ s.muxList, s.bIgnore x = false → x ∈ s.snapped ∧ s.sock x ≠ 0
  | _ => True

/-- `nfds` is at least every descriptor taken. -/
def Bounded (s : MuxState Inst) : Prop :=
  ∀ rest fds nfds, s.pc = .building rest fds nfds → ∀ x ∈ s.snapped, s.sock x ≤ nfds

/-- A step after which the thread is not blocked, or a post is due. -/
theorem attended_awake (h : s'.pc ≠ .waiting ∨ ¬ Unposted s') : Attended s' :=
  fun hpc hu => h.elim (fun hn => absurd hpc hn) fun hn => absurd hu hn

/-- A step that keeps the thread blocked, and leaves at most what was listed, as it was. -/
theorem Attended.congr (h : Attended s) (hpc : s'.pc = .waiting → s.pc = .waiting) (hu : Unposted s' → Unposted s)
    (hl : ∀ x ∈ s'.muxList, x ∈ s.muxList ∧ (s.bIgnore x = true → s'.bIgnore x = true)) : Attended s' :=
  fun hw hup x hx => (hl x hx).2 (h (hpc hw) (hu hup) x (hl x hx).1)

theorem Bounded.congr (h : Bounded s) (hpc : s'.pc = s.pc) (hsnap : s'.snapped = s.snapped)
    (hsock : ∀ x ∈ s.snapped, s'.sock x = s.sock x) : Bounded s' := by
  intro rest fds nfds hb x hx
  rw [hsnap] at hx
  rw [hpc] at hb
  rw [hsock x hx]
  exact h rest fds nfds hb x hx

theorem bounded_of_left (h : ∀ rest fds nfds, s.pc ≠ .building rest fds nfds) : Bounded s :=
  fun rest fds nfds hb => absurd hb (h rest fds nfds)

variable [DecidableEq Inst] {a : MuxStep Inst}

theorem Bounded.step (h : Bounded s) (hi : Inv s) (hs : step s a = some s') : Bounded s' := by
  cases act_some hs with
  | construct hx _ =>
    refine h.congr rfl rfl fun y hy => Function.update_of_ne ?_ ..
    rintro rfl
    exact hi.round.known y hy hx
  | lock _ => exact fun _ _ _ _ _ hx => by cases hx
  | fdIgnored hpc _ =>
    rintro _ _ _ ⟨⟩ y hy
    exact h _ _ _ hpc y hy
  | @fdSet x rest fds nfds hpc _ =>
    have hx : s.phase x = .registered := hi.listed.rest x (by rw [hpc]; exact List.mem_cons_self)
    rw [if_pos hx]
    rintro _ _ _ ⟨⟩ y hy
    rcases List.mem_append.1 hy with hy | hy
    · exact le_max_of_le_left (h _ _ _ hpc y hy)
    · rw [List.mem_singleton.1 hy]
      exact le_max_right _ _
  | leave _ _ | loopTest _ _ | cleaned _ _ | blocks _ | built _ _ | wait _ _ | timeout _ | select _ _ _ _ | relock _
  | recvReady _ _ | notReady _ _ | recvDone _ | dispatched _ => exact bounded_of_left fun _ _ _ hn => by cases hn
  | _ => exact h.congr rfl rfl fun _ _ => rfl

theorem attended_register (h : Attended s) {x : Inst} (hs : step s (.register x) = some s') :
    Attended s' ↔ Attends s (.register x) := by
  obtain ⟨⟨hx, -⟩, rfl⟩ := guard_some hs
  constructor
  · intro h' hpc hu
    by_contra hn
    rw [not_or] at hn
    have he : s.muxList.isEmpty = false := by simpa using hn.1
    exact hn.2 (h' hpc (by simpa [Unposted, setPhase, he] using hu) x (by simp))
  · intro ha hpc hu y hy
    have hpc : s.pc = .waiting := hpc
    by_cases he : s.muxList = []
    · exact absurd hu.2 (by simp [he])
    · have hu' : Unposted s := by simpa [Unposted, setPhase, he] using hu
      rcases List.mem_append.1 hy with hy | hy
      · exact h hpc hu' y hy
      · rw [List.mem_singleton.1 hy]
        exact (ha hpc hu').resolve_left he

theorem attended_resume (h : Attended s) {x : Inst} (hs : step s (.resume x) = some s') :
    Attended s' ↔ Attends s (.resume x) := by
  obtain ⟨hx, rfl⟩ := guard_some hs
  constructor
  · intro h' hpc hu hm
    have := h' hpc hu x hm
    simp [setIgnore] at this
  · intro ha hpc hu y hy
    have hne : y ≠ x := by
      rintro rfl
      exact ha hpc hu hy
    exact (Function.update_of_ne hne ..).trans (h hpc hu y hy)

/-- The loop over `_MuxList` is over: with `nfds` 0 the thread blocks. -/
theorem attended_built (hb : Bounded s) (hs : step s .built = some s') : Attended s' ↔ Attends s .built := by
  cases act_some hs with
  | @blocks fds hpc =>
    constructor
    · intro h' _ hu x hx hg
      have := h' rfl hu x hx
      rw [show s.bIgnore x = true from this] at hg
      cases hg
    · intro ha _ hu x hx
      by_contra hg
      obtain ⟨hsn, hne⟩ := ha (by rw [hpc]; rfl) hu x hx (by simpa using hg)
      exact hne (Nat.le_zero.1 (hb _ _ _ hpc x hsn))
  | @built fds nfds hpc h0 =>
    refine iff_of_true (attended_awake (.inl (by simp))) fun hf => ?_
    rw [hpc] at hf
    cases nfds with
    | zero => exact absurd rfl h0
    | succ n => cases hf

omit [DecidableEq Inst] in
/-- A step that sets `_bIgnore` of an instance that is not listed. -/
theorem Attended.unlisted (h : Attended s) (hi : Inv s) {x : Inst} (hx : s.phase x ≠ .registered)
    (hpc : s'.pc = .waiting → s.pc = .waiting) (hu : Unposted s' → Unposted s) (hl : s'.muxList = s.muxList)
    (hg : ∀ y, y ≠ x → s'.bIgnore y = s.bIgnore y) : Attended s' := by
  refine h.congr hpc hu fun y hy => ?_
  rw [hl] at hy
  refine ⟨hy, fun hy' => (hg y ?_).trans hy'⟩
  rintro rfl
  exact hx ((hi.listed.list y).1 hy)

/-- **Exactly the steps that attend to every connection leave none unattended.** -/
theorem attended_step (hi : Inv s) (hb : Bounded s) (h : Attended s) (hs : step s a = some s') :
    Attended s' ↔ Attends s a := by
  cases act_some hs with
  | register _ _ => exact attended_register h hs
  | resume _ => exact attended_resume h hs
  | blocks _ | built _ _ => exact attended_built hb hs
  | quit | destroy _ _ | post _ =>
    exact iff_of_true (attended_awake (.inr fun hu => by simp [Unposted] at hu)) trivial
  | @construct x t hx _ =>
    refine iff_of_true (h.unlisted hi (x := x) ?_ id id rfl fun y hy => Function.update_of_ne hy ..) trivial
    rw [hx]
    exact fun he => by cases he
  | @start x hx =>
    refine iff_of_true (h.unlisted hi (x := x) ?_ id id rfl fun y hy => Function.update_of_ne hy ..) trivial
    rw [hx]
    exact fun he => by cases he
  | @suspend x _ =>
    refine iff_of_true (h.congr id id fun y hy => ⟨hy, fun hg => ?_⟩) trivial
    by_cases he : y = x
    · simp [setIgnore, he]
    · exact (Function.update_of_ne he ..).trans hg
  | unregister _ _ => exact iff_of_true (h.congr id id fun y hy => ⟨List.mem_of_mem_filter hy, id⟩) trivial
  | openSocket _ | closeSocket _ | stopped _ | cleanup _ _ =>
    exact iff_of_true (h.congr id id fun y hy => ⟨hy, id⟩) trivial
  | _ =>
    -- the thread goes on, and not to its `sem_wait`
    exact iff_of_true (attended_awake (.inl fun hn => by cases hn)) trivial

/-! ## Every run -/

theorem attended_reach (h : (machine Inst).ReachWhen Attends s) : (Inv s ∧ Bounded s) ∧ Attended s := by
  refine Machine.ReachWhen.invariant (I := fun s => (Inv s ∧ Bounded s) ∧ Attended s) ?_ ?_ h
  · rintro s ⟨opened, rfl⟩
    exact ⟨⟨inv_start opened, nofun⟩, nofun⟩
  · rintro s a s' ⟨⟨hi, hb⟩, hat⟩ ha hs
    exact ⟨⟨hi.step hs, hb.step hi hs⟩, (attended_step hi hb hat hs).2 ha⟩

/-- **When the mux thread never sleeps on a live connection**: over the runs whose steps all attend to every connection
it does not; and a step that does not attend to one leaves the thread asleep on it. -/
theorem mux_attends (h : (machine Inst).ReachWhen Attends s) :
    Attended s ∧ ∀ a s', step s a = some s' → (Attended s' ↔ Attends s a) := by
  obtain ⟨⟨hi, hb⟩, ha⟩ := attended_reach h
  exact ⟨ha, fun a s' hs => attended_step hi hb ha hs⟩

instance (s : MuxState Inst) (a : MuxStep Inst) : Decidable (Attends s a) := by
  cases a <;> dsimp only [Attends, Unposted] <;> infer_instance

/-- One instance is registered and suspended, so the thread blocks, and then another is registered. -/
def secondRun : List (MuxStep Nat) := [.openSocket 5, .construct 0 5, .openSocket 6, .construct 1 6, .start 0,
  .register 0, .post, .suspend 0, .loopTest, .cleaned, .lock, .fdSet, .built, .wait, .loopTest, .cleaned, .lock,
  .fdSet, .built, .start 1]

theorem mux_attends_secondRun : ∃ s, (machine Nat).runWhen Attends (start fun _ => false) secondRun = some s ∧
    Attended s ∧ ∀ a s', step s a = some s' → (Attended s' ↔ Attends s a) := by
  obtain ⟨s, hs⟩ := Option.isSome_iff_exists.1
    (show ((machine Nat).runWhen Attends (start fun _ => false) secondRun).isSome = true by decide)
  exact ⟨s, hs, mux_attends (Machine.ReachWhen.runWhen (.init ⟨_, rfl⟩) hs)⟩

/-- **The thread sleeps on a live connection**: the list is not empty when the second instance is registered, so nothing
is posted. -/
theorem mux_sleeps : ∃ s, (machine Nat).run (start fun _ => false) (secondRun ++ [.register 1]) = some s ∧
    s.pc = .waiting ∧ s.hMuxEvent = 0 ∧ s.posts = 0 ∧ 1 ∈ s.muxList ∧ s.bIgnore 1 = false := by
  obtain ⟨s, hs⟩ := Option.isSome_iff_exists.1
    (show ((machine Nat).run (start fun _ => false) (secondRun ++ [.register 1])).isSome = true by decide)
  have h : ((machine Nat).run (start fun _ => false) (secondRun ++ [.register 1])).map (fun s =>
      decide (s.pc = .waiting ∧ s.hMuxEvent = 0 ∧ s.posts = 0 ∧ 1 ∈ s.muxList ∧ s.bIgnore 1 = false)) = some true := by
    decide
  rw [hs] at h
  exact ⟨s, hs, of_decide_eq_true (Option.some.inj h)⟩

end MuxState
end DevMgr
