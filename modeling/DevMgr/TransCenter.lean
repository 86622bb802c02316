import DevMgr.Ledger
import DevMgr.TransSockInst
/-!
# TransCenter — the sockets of the listeners and the transports

`TransCenter.cpp` over the mux thread's machine: any number of threads call `InitListener`, `WaitConnectIn`,
`FinishListener`, `ConnectOut`, `CreateTransInst` and `FinishTransInst`, each one call after the other, and the labels
carry what the system calls return, of which each may fail.  A thread passes its own listener to `WaitConnectIn` and
`FinishListener`.  `hListener` is 0, which is `NULL`, where there is none; so a listener on the descriptor 0 is taken
for a failure (`lost`).  `others` of the mux thread's machine are the descriptors in these calls and those of the rest
of the process, `base`.
-/
namespace DevMgr

open Machines Ledgers

structure TransAddr where
  ipv4 : Bool
  bStream : Bool
  deriving DecidableEq, Repr

/-- The calls that make a socket. -/
inductive TransCall where
  | initListener
  | waitConnectIn
  | connectOut
  | createTransInst
  deriving DecidableEq, Repr

/-- Where a thread is: before a system call, on the descriptor it has; at a `closesocket` of a call that fails; with its
new instance in front of the `push_back`; or between the two halves of `FinishTransInst`. -/
inductive TransPc (Inst : Type) where
  | out
  | socket (c : TransCall) (bStream : Bool)
  | bind (c : TransCall) (bStream : Bool) (s : SOCKET)
  | listen (s : SOCKET)
  | connect (s : SOCKET)
  | select
  | accept
  | newInst (s : SOCKET)
  | closing (s : SOCKET)
  | pushBack (x : Inst)
  | deleting (x : Inst)
  deriving DecidableEq, Repr

namespace TransPc

variable {Inst : Type}

/-- The descriptor in a call. -/
def sock : TransPc Inst → Option SOCKET
  | .bind _ _ s | .listen s | .connect s | .newInst s | .closing s => some s
  | _ => none

/-- The instance in a call. -/
def inst : TransPc Inst → Option Inst
  | .pushBack x | .deleting x => some x
  | _ => none

/-- In `InitListener`, with a socket to make. -/
def listens : TransPc Inst → Bool
  | .socket c _ | .bind c _ _ => c == .initListener
  | .listen _ => true
  | _ => false

end TransPc

structure TransCenter (Inst Caller : Type) where
  mux : MuxState Inst
  base : SOCKET → Option Unit
  transList : List Inst
  hListener : Caller → SOCKET
  pc : Caller → TransPc Inst
  lost : List SOCKET

inductive TransCenterStep (Inst Caller : Type) where
  | mux (a : MuxStep Inst)
  | openOther (t : SOCKET)
  | closeOther (t : SOCKET)
  | call (k : Caller) (c : TransCall) (addr : TransAddr)
  | socket (k : Caller) (r : Option SOCKET)
  | bind (k : Caller) (ok : Bool)
  | listen (k : Caller) (ok : Bool)
  | connect (k : Caller) (ok : Bool)
  | select (k : Caller) (ready : Bool)
  | accept (k : Caller) (r : Option SOCKET)
  | newInst (k : Caller) (x : Option Inst)
  | close (k : Caller)
  | pushBack (k : Caller)
  | finishListener (k : Caller)
  | finishTransInst (k : Caller) (x : Inst)
  | delete (k : Caller)

namespace TransCenter

variable {Inst Caller : Type} [DecidableEq Inst] [DecidableEq Caller]

def setPc (s : TransCenter Inst Caller) (k : Caller) (pc : TransPc Inst) : TransCenter Inst Caller :=
  { s with pc := Function.update s.pc k pc }

/-- A step of the mux thread's machine made in a call. -/
def withMux (s : TransCenter Inst Caller) (a : MuxStep Inst) (f : TransCenter Inst Caller → TransCenter Inst Caller) :
    Option (TransCenter Inst Caller) :=
  match s.mux.step a with
  | none => none
  | some mux => some (f { s with mux := mux })

/-- What the mux thread does, and with an instance those whom it was given to. -/
def muxAllowed (s : TransCenter Inst Caller) : MuxStep Inst → Bool
  | .openSocket _ | .closeSocket _ | .construct _ _ | .destroy _ => false
  | .start x | .register x | .unregister x | .stopped x | .suspend x | .resume x => x ∈ s.transList
  | _ => true

/-- Where a call goes with a socket that `CreateAndBind` made; `InitListener` returns it as a `HANDLE`. -/
def made (s : TransCenter Inst Caller) (k : Caller) (c : TransCall) (t : SOCKET) : TransCenter Inst Caller :=
  match c with
  | .initListener => if t = 0 then { s.setPc k .out with lost := s.lost ++ [t] }
    else { s.setPc k .out with hListener := Function.update s.hListener k t }
  | .waitConnectIn | .connectOut | .createTransInst => s.setPc k (.newInst t)

def step (s : TransCenter Inst Caller) : TransCenterStep Inst Caller → Option (TransCenter Inst Caller)
  | .mux a => if s.muxAllowed a then s.withMux a id else none
  | .openOther t => s.withMux (.openSocket t) fun s => { s with base := Function.update s.base t (some ()) }
  | .closeOther t => if s.base t = none then none
    else s.withMux (.closeSocket t) fun s => { s with base := Function.update s.base t none }
  | .call k c addr => if s.pc k = .out then match c with
      | .initListener => if s.hListener k = 0 then
          some (s.setPc k (if addr.ipv4 then .socket c addr.bStream else .out)) else none
      | .waitConnectIn => if s.hListener k = 0 then none else some (s.setPc k .select)
      | .connectOut | .createTransInst => some (s.setPc k (if addr.ipv4 then .socket c addr.bStream else .out))
    else none
  | .socket k r => match s.pc k with
    | .socket c bStream => match r with
      | none => some (s.setPc k .out)
      | some t => s.withMux (.openSocket t) fun s =>
          s.setPc k (if c = .connectOut then .connect t else .bind c bStream t)
    | _ => none
  | .bind k ok => match s.pc k with
    | .bind c bStream t => some (if ok then
        if c = .initListener ∧ bStream then s.setPc k (.listen t) else s.made k c t
      else s.setPc k (.closing t))
    | _ => none
  | .listen k ok => match s.pc k with
    | .listen t => some (if ok then s.made k .initListener t else s.setPc k (.closing t))
    | _ => none
  | .connect k ok => match s.pc k with
    | .connect t => some (s.setPc k (if ok then .newInst t else .closing t))
    | _ => none
  | .select k ready => match s.pc k with
    | .select => some (s.setPc k (if ready then .accept else .out))
    | _ => none
  | .accept k r => match s.pc k with
    | .accept => match r with
      | none => some (s.setPc k .out)
      | some t => s.withMux (.openSocket t) fun s => s.setPc k (.newInst t)
    | _ => none
  | .newInst k x => match s.pc k with
    | .newInst t => match x with
      | none => some (s.setPc k (.closing t))
      | some x => s.withMux (.construct x t) fun s => s.setPc k (.pushBack x)
    | _ => none
  | .close k => match s.pc k with
    | .closing t => s.withMux (.closeSocket t) fun s => s.setPc k .out
    | _ => none
  | .pushBack k => match s.pc k with
    | .pushBack x => some { s.setPc k .out with transList := s.transList ++ [x] }
    | _ => none
  | .finishListener k => if s.pc k = .out ∧ s.hListener k ≠ 0 then
      s.withMux (.closeSocket (s.hListener k)) fun s => { s with hListener := Function.update s.hListener k 0 }
    else none
  | .finishTransInst k x => if s.pc k = .out ∧ x ∈ s.transList ∧ s.mux.phase x = .idle then
      some { s.setPc k (.deleting x) with transList := s.transList.filter (· ≠ x) } else none
  | .delete k => match s.pc k with
    | .deleting x => s.withMux (.destroy x) fun s => s.setPc k .out
    | _ => none

/-- After `Startup`, with the descriptors that the process has by then. -/
def start (opened : SOCKET → Bool) : TransCenter Inst Caller where
  mux := .start opened
  base t := if opened t then some () else none
  transList := []
  hListener _ := 0
  pc _ := .out
  lost := []

def machine (Inst Caller : Type) [DecidableEq Inst] [DecidableEq Caller] :
    Machine (TransCenter Inst Caller) (TransCenterStep Inst Caller) where
  init s := ∃ opened, s = start opened
  step := step

/-! ## What a step can do -/

variable {s s' : TransCenter Inst Caller} {a : TransCenterStep Inst Caller}

/-- **What a step can do.** -/
inductive Moved (s : TransCenter Inst Caller) : TransCenter Inst Caller → Prop
  | mux {b : MuxStep Inst} {mux : MuxState Inst} (hb : s.muxAllowed b = true) (hs : s.mux.step b = some mux) :
    Moved s { s with mux := mux }
  | openOther {t : SOCKET} {mux : MuxState Inst} (hs : s.mux.step (.openSocket t) = some mux) :
    Moved s { s with mux := mux, base := Function.update s.base t (some ()) }
  | closeOther {t : SOCKET} {mux : MuxState Inst} (hb : s.base t ≠ none)
      (hs : s.mux.step (.closeSocket t) = some mux) :
    Moved s { s with mux := mux, base := Function.update s.base t none }
  | move {k : Caller} {pc : TransPc Inst} (hsock : pc.sock = (s.pc k).sock) (hi : (s.pc k).inst = none)
      (hi' : pc.inst = none) (hl : pc.listens = true → (s.pc k).listens = true ∨ s.hListener k = 0) :
    Moved s (s.setPc k pc)
  | opened {k : Caller} {pc : TransPc Inst} {t : SOCKET} {mux : MuxState Inst} (h0 : (s.pc k).sock = none)
      (hsock : pc.sock = some t) (hi : (s.pc k).inst = none) (hi' : pc.inst = none)
      (hl : pc.listens = true → (s.pc k).listens = true)
      (hs : s.mux.step (.openSocket t) = some mux) : Moved s { s.setPc k pc with mux := mux }
  | closed {k : Caller} {t : SOCKET} {mux : MuxState Inst} (hpc : s.pc k = .closing t)
      (hs : s.mux.step (.closeSocket t) = some mux) : Moved s { s.setPc k .out with mux := mux }
  | listens {k : Caller} {t : SOCKET} (hsock : (s.pc k).sock = some t) (hl : (s.pc k).listens = true)
      (hi : (s.pc k).inst = none) (h0 : t ≠ 0) :
    Moved s { s.setPc k .out with hListener := Function.update s.hListener k t }
  | loses {k : Caller} {t : SOCKET} (hsock : (s.pc k).sock = some t) (hi : (s.pc k).inst = none) (h0 : t = 0) :
    Moved s { s.setPc k .out with lost := s.lost ++ [t] }
  | listenerClosed {k : Caller} {mux : MuxState Inst} (hpc : s.pc k = .out) (h0 : s.hListener k ≠ 0)
      (hs : s.mux.step (.closeSocket (s.hListener k)) = some mux) :
    Moved s { s with mux := mux, hListener := Function.update s.hListener k 0 }
  | constructed {k : Caller} {t : SOCKET} {x : Inst} {mux : MuxState Inst} (hpc : s.pc k = .newInst t)
      (hs : s.mux.step (.construct x t) = some mux) : Moved s { s.setPc k (.pushBack x) with mux := mux }
  | pushed {k : Caller} {x : Inst} (hpc : s.pc k = .pushBack x) :
    Moved s { s.setPc k .out with transList := s.transList ++ [x] }
  | removed {k : Caller} {x : Inst} (hpc : s.pc k = .out) (hx : x ∈ s.transList) (hidle : s.mux.phase x = .idle) :
    Moved s { s.setPc k (.deleting x) with transList := s.transList.filter (· ≠ x) }
  | deleted {k : Caller} {x : Inst} {mux : MuxState Inst} (hpc : s.pc k = .deleting x)
      (hs : s.mux.step (.destroy x) = some mux) : Moved s { s.setPc k .out with mux := mux }

omit [DecidableEq Caller] in
theorem withMux_some {b : MuxStep Inst} {f : TransCenter Inst Caller → TransCenter Inst Caller}
    (h : s.withMux b f = some s') : ∃ mux, s.mux.step b = some mux ∧ s' = f { s with mux := mux } := by
  unfold withMux at h
  split at h
  · cases h
  · exact ⟨_, ‹_›, (Option.some.inj h).symm⟩

/-- A socket that `CreateAndBind` made is kept for its instance, or becomes the listener. -/
theorem moved_made {k : Caller} {c : TransCall} {t : SOCKET} (hsock : (s.pc k).sock = some t)
    (hl : c = .initListener → (s.pc k).listens = true) (hi : (s.pc k).inst = none) : Moved s (s.made k c t) := by
  cases c with
  | initListener =>
    unfold made
    dsimp only
    split
    · exact .loses hsock hi ‹_›
    · exact .listens hsock (hl rfl) hi ‹_›
  | waitConnectIn | connectOut | createTransInst => exact .move hsock.symm hi rfl (by simp [TransPc.listens])

/-- A call begins or fails with no descriptor. -/
theorem moved_free {k : Caller} {pc : TransPc Inst} (h0 : (s.pc k).sock = none) (hi : (s.pc k).inst = none)
    (hsock : pc.sock = none) (hi' : pc.inst = none) (hl : pc.listens = true → s.hListener k = 0) :
    Moved s (s.setPc k pc) :=
  .move (hsock.trans h0.symm) hi hi' fun h => .inr (hl h)

/-- A call fails with the descriptor it has. -/
theorem moved_closing {k : Caller} {t : SOCKET} (hsock : (s.pc k).sock = some t) (hi : (s.pc k).inst = none) :
    Moved s (s.setPc k (.closing t)) :=
  .move hsock.symm hi rfl (by simp [TransPc.listens])

theorem moved (hs : step s a = some s') : Moved s s' := by
  cases a with
  | mux b =>
    simp only [step] at hs
    split at hs
    · obtain ⟨mux, hm, rfl⟩ := withMux_some hs
      exact .mux ‹_› hm
    · cases hs
  | openOther t =>
    simp only [step] at hs
    obtain ⟨mux, hm, rfl⟩ := withMux_some hs
    exact .openOther hm
  | closeOther t =>
    simp only [step] at hs
    split at hs
    · cases hs
    · obtain ⟨mux, hm, rfl⟩ := withMux_some hs
      exact .closeOther ‹_› hm
  | call k c addr =>
    simp only [step] at hs
    split at hs
    · rename_i hpc
      have hsock : (s.pc k).sock = none := by rw [hpc]; rfl
      have hi : (s.pc k).inst = none := by rw [hpc]; rfl
      cases c with
      | initListener =>
        obtain ⟨h0, rfl⟩ := guard_some hs
        refine moved_free hsock hi ?_ ?_ fun _ => h0 <;> split <;> rfl
      | waitConnectIn =>
        dsimp only at hs
        split at hs
        · cases hs
        · cases hs
          exact moved_free hsock hi rfl rfl (by simp [TransPc.listens])
      | connectOut | createTransInst =>
        cases hs
        refine moved_free hsock hi ?_ ?_ ?_ <;> split <;> simp [TransPc.listens, TransPc.sock, TransPc.inst]
    · cases hs
  | socket k r =>
    simp only [step] at hs
    split at hs
    · rename_i c bStream hpc
      have hsock : (s.pc k).sock = none := by rw [hpc]; rfl
      have hi : (s.pc k).inst = none := by rw [hpc]; rfl
      cases r with
      | none =>
        cases hs
        exact moved_free hsock hi rfl rfl (by simp [TransPc.listens])
      | some t =>
        obtain ⟨mux, hm, rfl⟩ := withMux_some hs
        refine .opened hsock ?_ hi ?_ ?_ hm
        · split <;> rfl
        · split <;> rfl
        · rw [hpc]
          split
          · simp [TransPc.listens]
          · exact id
    · cases hs
  | bind k ok =>
    simp only [step] at hs
    split at hs
    · rename_i c bStream t hpc
      have hsock : (s.pc k).sock = some t := by rw [hpc]; rfl
      have hi : (s.pc k).inst = none := by rw [hpc]; rfl
      have hl : c = .initListener → (s.pc k).listens = true := by
        rintro rfl
        rw [hpc]
        rfl
      cases hs
      cases ok with
      | true =>
        rw [if_pos rfl]
        split
        · rename_i hc
          exact .move hsock.symm hi rfl fun _ => .inl (hl hc.1)
        · exact moved_made hsock hl hi
      | false => exact moved_closing hsock hi
    · cases hs
  | listen k ok =>
    simp only [step] at hs
    split at hs
    · rename_i t hpc
      have hsock : (s.pc k).sock = some t := by rw [hpc]; rfl
      have hi : (s.pc k).inst = none := by rw [hpc]; rfl
      cases hs
      cases ok with
      | true =>
        rw [if_pos rfl]
        exact moved_made hsock (fun _ => by rw [hpc]; rfl) hi
      | false => exact moved_closing hsock hi
    · cases hs
  | connect k ok =>
    simp only [step] at hs
    split at hs
    · rename_i t hpc
      have hsock : (s.pc k).sock = some t := by rw [hpc]; rfl
      have hi : (s.pc k).inst = none := by rw [hpc]; rfl
      cases hs
      cases ok with
      | true => exact .move hsock.symm hi rfl (by simp [TransPc.listens])
      | false => exact moved_closing hsock hi
    · cases hs
  | select k ready =>
    simp only [step] at hs
    split at hs
    · rename_i hpc
      cases hs
      refine moved_free (by rw [hpc]; rfl) (by rw [hpc]; rfl) ?_ ?_ ?_ <;> cases ready <;>
        simp [TransPc.listens, TransPc.sock, TransPc.inst]
    · cases hs
  | accept k r =>
    simp only [step] at hs
    split at hs
    · rename_i hpc
      have hsock : (s.pc k).sock = none := by rw [hpc]; rfl
      have hi : (s.pc k).inst = none := by rw [hpc]; rfl
      cases r with
      | none =>
        cases hs
        exact moved_free hsock hi rfl rfl (by simp [TransPc.listens])
      | some t =>
        obtain ⟨mux, hm, rfl⟩ := withMux_some hs
        exact .opened hsock rfl hi rfl (by simp [TransPc.listens]) hm
    · cases hs
  | newInst k x =>
    simp only [step] at hs
    split at hs
    · rename_i t hpc
      cases x with
      | none =>
        cases hs
        exact moved_closing (by rw [hpc]; rfl) (by rw [hpc]; rfl)
      | some x =>
        obtain ⟨mux, hm, rfl⟩ := withMux_some hs
        exact .constructed hpc hm
    · cases hs
  | close k =>
    simp only [step] at hs
    split at hs
    · obtain ⟨mux, hm, rfl⟩ := withMux_some hs
      exact .closed ‹_› hm
    · cases hs
  | pushBack k =>
    simp only [step] at hs
    split at hs
    · cases hs
      exact .pushed ‹_›
    · cases hs
  | finishListener k =>
    simp only [step] at hs
    split at hs
    · rename_i hg
      obtain ⟨mux, hm, rfl⟩ := withMux_some hs
      exact .listenerClosed hg.1 hg.2 hm
    · cases hs
  | finishTransInst k x =>
    obtain ⟨⟨hpc, hx, hidle⟩, rfl⟩ := guard_some hs
    exact .removed hpc hx hidle
  | delete k =>
    simp only [step] at hs
    split at hs
    · obtain ⟨mux, hm, rfl⟩ := withMux_some hs
      exact .deleted ‹_› hm
    · cases hs

/-! ## The mux thread's machine -/

section
variable {m m' : MuxState Inst} {b : MuxStep Inst} {t : SOCKET}

/-- Every open descriptor has an owner. -/
def Covered (m : MuxState Inst) : Prop :=
  ∀ t, m.opened t = true → m.others t = true ∨ (∃ x, m.live x ∧ m.sock x = t) ∨ t ∈ m.socketList

omit [DecidableEq Inst] in
theorem Covered.congr (h : Covered m) (hl : ∀ x, m'.live x ↔ m.live x) (h1 : m'.sock = m.sock)
    (h2 : m'.opened = m.opened) (h3 : m'.others = m.others) (h4 : m'.socketList = m.socketList) : Covered m' := by
  intro t ht
  rw [h2] at ht
  rw [h1, h3, h4]
  simp only [hl]
  exact h t ht

theorem Covered.step (h : Covered m) (hs : m.step b = some m') : Covered m' := by
  cases MuxState.act_some hs with
  | @openSocket t ht =>
    intro u hu
    by_cases he : u = t
    · exact .inl (by simp [he])
    · simp only [Function.update_of_ne he] at hu ⊢
      exact h u hu
  | @closeSocket t ht =>
    intro u hu
    have he : u ≠ t := by
      rintro rfl
      simp at hu
    simp only [Function.update_of_ne he] at hu ⊢
    exact h u hu
  | @construct x t hx ht =>
    intro u hu
    have hold : ∀ y, m.live y → y ≠ x := by
      rintro y hy rfl
      rw [MuxState.live, hx] at hy
      cases hy
    by_cases he : u = t
    · refine .inr (.inl ⟨x, MuxState.live_setPhase.2 (.inl ⟨rfl, rfl⟩), ?_⟩)
      rw [he]
      exact Function.update_self ..
    · rcases h u hu with h1 | ⟨y, hy, rfl⟩ | h1
      · exact .inl (by simpa [Function.update_of_ne he] using h1)
      · exact .inr (.inl ⟨y, MuxState.live_setPhase.2 (.inr ⟨hold y hy, hy⟩), Function.update_of_ne (hold y hy) ..⟩)
      · exact .inr (.inr h1)
  | @destroy x hx _ =>
    intro u hu
    rcases h u hu with h1 | ⟨y, hy, rfl⟩ | h1
    · exact .inl h1
    · by_cases hyx : y = x
      · exact .inr (.inr (by simp [hyx]))
      · exact .inr (.inl ⟨y, MuxState.live_setPhase.2 (.inr ⟨hyx, hy⟩), rfl⟩)
    · exact .inr (.inr (List.mem_append_left _ h1))
  | @cleanup t ts _ hl =>
    intro u hu
    have he : u ≠ t := by
      rintro rfl
      simp at hu
    rcases h u ((Function.update_of_ne he ..).symm.trans hu) with h1 | h1 | h1
    · exact .inl h1
    · exact .inr (.inl h1)
    · rw [hl] at h1
      exact .inr (.inr ((List.mem_cons.1 h1).resolve_left he))
  | start hx | register hx _ | unregister hx _ | stopped hx =>
    exact h.congr (fun y => MuxState.live_setPhase_same (by rw [hx]; rfl)) rfl rfl rfl rfl
  | _ => exact h.congr (fun _ => .rfl) rfl rfl rfl rfl

theorem opens (hs : m.step (.openSocket t) = some m') : m.opened t = false ∧ m'.phase = m.phase ∧
    m'.others = Function.update m.others t true := by
  obtain ⟨ht, rfl⟩ := guard_some hs
  exact ⟨ht, rfl, rfl⟩

theorem closes (hs : m.step (.closeSocket t) = some m') : m.others t = true ∧ m'.phase = m.phase ∧
    m'.others = Function.update m.others t false := by
  obtain ⟨ht, rfl⟩ := guard_some hs
  exact ⟨ht, rfl, rfl⟩

end

/-! ## What every run keeps -/

/-- The descriptors that the mux thread's machine has for others. -/
def otherSocks (s : TransCenter Inst Caller) (t : SOCKET) : Option Unit := if s.mux.others t then some () else none

/-- The descriptors of a thread, and those that nobody has any more. -/
def held (s : TransCenter Inst Caller) : Option Caller → List (SOCKET × Unit)
  | none => s.lost.map fun t => (t, ())
  | some k => ((if s.hListener k = 0 then [] else [s.hListener k]) ++ (s.pc k).sock.toList).map fun t => (t, ())

structure Insts (s : TransCenter Inst Caller) : Prop where
  live_iff : ∀ x, s.mux.live x ↔ x ∈ s.transList ∨ ∃ k, (s.pc k).inst = some x
  one : ∀ k l x, (s.pc k).inst = some x → (s.pc l).inst = some x → k = l
  apart : ∀ k x, (s.pc k).inst = some x → x ∉ s.transList ∧ s.mux.phase x = .idle
  nodup : s.transList.Nodup

structure Inv (s : TransCenter Inst Caller) : Prop where
  socks : s.mux.Socks
  covered : Covered s.mux
  accounts : Accounts s.otherSocks s.base s.held
  fresh : ∀ k, (s.pc k).listens = true → s.hListener k = 0
  lost : ∀ t ∈ s.lost, t = 0
  insts : Insts s

omit [DecidableEq Caller] in
theorem allowed_keeps {b : MuxStep Inst} {mux : MuxState Inst} (hb : s.muxAllowed b = true)
    (hs : s.mux.step b = some mux) : mux.others = s.mux.others ∧ (∀ x, mux.live x ↔ s.mux.live x) ∧
      ∀ x, x ∉ s.transList → mux.phase x = s.mux.phase x := by
  cases MuxState.act_some hs with
  | openSocket | closeSocket | construct | destroy => cases hb
  | @start x hx | @register x hx _ | @unregister x hx _ | @stopped x hx =>
    have hmem : x ∈ s.transList := of_decide_eq_true hb
    refine ⟨rfl, fun y => MuxState.live_setPhase_same (by rw [hx]; rfl), fun y hy => ?_⟩
    have hne : y ≠ x := by
      rintro rfl
      exact hy hmem
    exact Function.update_of_ne hne ..
  | _ => exact ⟨rfl, fun _ => .rfl, fun _ _ => rfl⟩

omit [DecidableEq Inst] [DecidableEq Caller] in
theorem held_some (s : TransCenter Inst Caller) (k : Caller) : s.held (some k) =
    ((if s.hListener k = 0 then [] else [s.hListener k]) ++ (s.pc k).sock.toList).map fun t => (t, ()) := rfl

section
variable {k : Caller} {pc : TransPc Inst}

omit [DecidableEq Inst] in
/-- The threads but for one keep what they have. -/
theorem held_of_ne (h3 : s'.pc = Function.update s.pc k pc) (h1 : s'.lost = s.lost)
    (h2 : ∀ l, l ≠ k → s'.hListener l = s.hListener l) : ∀ j, j ≠ some k → s'.held j = s.held j
  | none, _ => by
    unfold held
    rw [h1]
  | some l, hj => by
    have he : l ≠ k := fun he => hj (congrArg some he)
    rw [held_some, held_some, h2 l he, h3, Function.update_of_ne he]

omit [DecidableEq Inst] in
theorem held_self (h3 : s'.pc = Function.update s.pc k pc) (h2 : s'.hListener k = s.hListener k) : s'.held (some k) =
    ((if s.hListener k = 0 then [] else [s.hListener k]) ++ pc.sock.toList).map fun t => (t, ()) := by
  rw [held_some, h2, h3, Function.update_self]

omit [DecidableEq Inst] in
/-- A call that goes on with the descriptor it has. -/
theorem held_same (h3 : s'.pc = Function.update s.pc k pc) (h1 : s'.lost = s.lost) (h2 : s'.hListener = s.hListener)
    (hsock : pc.sock = (s.pc k).sock) : ∀ j, s'.held j = s.held j := by
  intro j
  by_cases hj : j = some k
  · subst hj
    rw [held_self h3 (congrFun h2 k), hsock, held_some]
  · exact held_of_ne h3 h1 (fun l _ => congrFun h2 l) j hj

end

omit [DecidableEq Inst] [DecidableEq Caller] in
theorem otherSocks_same (hm : s'.mux.others = s.mux.others) : s'.otherSocks = s.otherSocks := by
  unfold otherSocks
  rw [hm]

omit [DecidableEq Inst] [DecidableEq Caller] in
theorem otherSocks_update {t : SOCKET} {b : Bool} (hm : s'.mux.others = Function.update s.mux.others t b) :
    s'.otherSocks = Function.update s.otherSocks t (if b then some () else none) := by
  funext u
  unfold otherSocks
  rw [hm]
  by_cases hu : u = t
  · subst hu
    rw [Function.update_self, Function.update_self]
  · rw [Function.update_of_ne hu, Function.update_of_ne hu]

omit [DecidableEq Inst] [DecidableEq Caller] in
theorem Inv.free (h : Inv s) {t : SOCKET} (ht : s.mux.opened t = false) : s.otherSocks t = none := by
  unfold otherSocks
  rw [if_neg]
  intro ho
  rw [h.socks.others t ho] at ht
  cases ht

omit [DecidableEq Inst] in
/-- A thread gives away the descriptor that is in its call. -/
theorem Inv.give_sock (h : Inv s) {k : Caller} {pc : TransPc Inst} {t : SOCKET} (hsock : (s.pc k).sock = some t)
    (h0 : pc.sock = none) (ho : s'.mux.others = Function.update s.mux.others t false) (hb : s'.base = s.base)
    (h1 : s'.lost = s.lost) (h2 : s'.hListener = s.hListener) (h3 : s'.pc = Function.update s.pc k pc) :
    Accounts s'.otherSocks s'.base s'.held := by
  rw [otherSocks_update ho, hb]
  refine h.accounts.give (i := some k) (v := ()) ?_ (held_of_ne h3 h1 fun l _ => congrFun h2 l)
  rw [held_self h3 (congrFun h2 k), held_some, hsock, h0]
  simp

theorem Inv.accounts_step (h : Inv s) (hs : Moved s s') : Accounts s'.otherSocks s'.base s'.held := by
  have ha := h.accounts
  cases hs with
  | mux hb hm =>
    rw [otherSocks_same (allowed_keeps hb hm).1]
    exact ha
  | @openOther t mux hm =>
    obtain ⟨ht, -, ho⟩ := opens hm
    rw [otherSocks_update ho]
    exact ha.baseTake (h.free ht)
  | @closeOther t mux hb hm =>
    obtain ⟨-, -, ho⟩ := closes hm
    rw [otherSocks_update ho]
    exact ha.baseGive hb
  | move hsock _ _ _ => exact ha.congr (held_same rfl rfl rfl hsock)
  | @opened k pc t mux h0 hsock _ _ _ hm =>
    obtain ⟨ht, -, ho⟩ := opens hm
    rw [otherSocks_update ho]
    have hpc : ({ s.setPc k pc with mux := mux } : TransCenter Inst Caller).pc = Function.update s.pc k pc := rfl
    refine ha.take (i := some k) (h.free ht) ?_ (held_of_ne hpc rfl fun _ _ => rfl)
    rw [held_self hpc rfl, held_some, h0, hsock]
    simp
  | closed hpc hm =>
    obtain ⟨-, -, ho⟩ := closes hm
    exact h.give_sock (by rw [hpc]; rfl) rfl ho rfl rfl rfl rfl
  | @listens k t hsock hl _ h0 =>
    refine ha.congr fun j => ?_
    have hpc : ({ s.setPc k .out with hListener := Function.update s.hListener k t } : TransCenter Inst Caller).pc =
        Function.update s.pc k .out := rfl
    by_cases hj : j = some k
    · subst hj
      rw [held_some, held_some, hsock, h.fresh k hl, hpc, Function.update_self]
      show List.map _ ((if Function.update s.hListener k t k = 0 then [] else [Function.update s.hListener k t k]) ++
        (TransPc.out : TransPc Inst).sock.toList) = _
      rw [Function.update_self, if_neg h0]
      rfl
    · exact held_of_ne hpc rfl (fun _ hl => Function.update_of_ne hl ..) j hj
  | @loses k t hsock _ h0 =>
    have hpc : ({ s.setPc k .out with lost := s.lost ++ [t] } : TransCenter Inst Caller).pc =
        Function.update s.pc k .out := rfl
    refine ha.pass (i := some k) (j := none) (k := t) (v := ()) (by simp) ?_ ?_ ?_
    · rw [held_self hpc rfl, held_some, hsock]
      simp [TransPc.sock]
    · show (List.map _ (s.lost ++ [t])).Perm _
      simp [held]
    · rintro (_ | l) hl hn
      · exact absurd rfl hn
      · have he : l ≠ k := fun he => hl (congrArg some he)
        rw [held_some, held_some, hpc, Function.update_of_ne he]
        rfl
  | @listenerClosed k mux hpc h0 hm =>
    obtain ⟨-, -, ho⟩ := closes hm
    rw [otherSocks_update ho]
    refine ha.give (i := some k) (v := ()) ?_
      (held_of_ne (Function.update_eq_self k s.pc).symm rfl fun _ hl => Function.update_of_ne hl ..)
    rw [held_some, held_some, if_neg h0, hpc]
    simp [TransPc.sock]
  | constructed hpc hm =>
    obtain ⟨⟨-, -⟩, rfl⟩ := guard_some hm
    exact h.give_sock (by rw [hpc]; rfl) rfl rfl rfl rfl rfl rfl
  | pushed hpc => exact ha.congr (held_same rfl rfl rfl (by rw [hpc]; rfl))
  | removed hpc _ _ => exact ha.congr (held_same rfl rfl rfl (by rw [hpc]; rfl))
  | deleted hpc hm =>
    obtain ⟨-, rfl⟩ := guard_some hm
    exact ha.congr (held_same rfl rfl rfl (by rw [hpc]; rfl))

/-! ### The instances -/

omit [DecidableEq Inst] [DecidableEq Caller] in
theorem Insts.congr (h : Insts s) (hp : s'.mux.phase = s.mux.phase) (hl : s'.transList = s.transList)
    (hi : ∀ k, (s'.pc k).inst = (s.pc k).inst) : Insts s' where
  live_iff x := by
    unfold MuxState.live
    rw [hp, hl]
    simp only [hi]
    exact h.live_iff x
  one k l x := by
    rw [hi, hi]
    exact h.one k l x
  apart k x := by
    rw [hi, hl, hp]
    exact h.apart k x
  nodup := hl ▸ h.nodup

omit [DecidableEq Inst] in
theorem inst_update {k : Caller} {pc : TransPc Inst} {x : Inst} (l : Caller) :
    ((Function.update s.pc k pc) l).inst = some x ↔ (l = k ∧ pc.inst = some x) ∨ (l ≠ k ∧ (s.pc l).inst = some x) := by
  by_cases hl : l = k
  · subst hl
    simp
  · simp [hl]

omit [DecidableEq Inst] in
/-- A call that is with no instance before or after. -/
theorem inst_same {k : Caller} {pc : TransPc Inst} (hi : (s.pc k).inst = none) (hi' : pc.inst = none) (l : Caller) :
    ((Function.update s.pc k pc) l).inst = (s.pc l).inst := by
  by_cases hl : l = k
  · subst hl
    rw [Function.update_self, hi, hi']
  · rw [Function.update_of_ne hl]

omit [DecidableEq Inst] in
theorem inst_in {k : Caller} {pc : TransPc Inst} {x : Inst} (hi : (s.pc k).inst = none) (hx : pc.inst = some x)
    (l : Caller) (y : Inst) :
    ((Function.update s.pc k pc) l).inst = some y ↔ (l = k ∧ y = x) ∨ (s.pc l).inst = some y := by
  rw [inst_update, hx]
  constructor
  · rintro (⟨hl, he⟩ | ⟨-, hl⟩)
    · exact .inl ⟨hl, (Option.some.inj he).symm⟩
    · exact .inr hl
  · rintro (⟨hl, rfl⟩ | hl)
    · exact .inl ⟨hl, rfl⟩
    · refine .inr ⟨?_, hl⟩
      rintro rfl
      rw [hi] at hl
      cases hl

omit [DecidableEq Inst] in
theorem inst_out {k : Caller} {x : Inst} (hx : (s.pc k).inst = some x) (h : Insts s) (l : Caller) (y : Inst) :
    ((Function.update s.pc k .out) l).inst = some y ↔ y ≠ x ∧ (s.pc l).inst = some y := by
  rw [inst_update]
  constructor
  · rintro (⟨-, hl⟩ | ⟨hne, hl⟩)
    · cases hl
    · refine ⟨?_, hl⟩
      rintro rfl
      exact hne (h.one l k y hl hx)
  · rintro ⟨hne, hl⟩
    refine .inr ⟨?_, hl⟩
    rintro rfl
    rw [hx] at hl
    exact hne (Option.some.inj hl).symm

omit [DecidableEq Inst] in
/-- **A thread takes an instance into its call**, a new one or one of `_TransList`. -/
theorem Insts.enter (h : Insts s) {k : Caller} {pc : TransPc Inst} {x : Inst} (hi : (s.pc k).inst = none)
    (hx : pc.inst = some x) (hcall : ∀ l, (s.pc l).inst ≠ some x) (hpc : s'.pc = Function.update s.pc k pc)
    (hlive : ∀ y, s'.mux.live y ↔ y = x ∨ s.mux.live y) (hlist : ∀ y, y ∈ s'.transList ↔ y ≠ x ∧ y ∈ s.transList)
    (hidle : s'.mux.phase x = .idle) (hphase : ∀ y, y ≠ x → s'.mux.phase y = s.mux.phase y)
    (hnd : s'.transList.Nodup) : Insts s' := by
  have hinst := inst_in hi hx
  rw [← hpc] at hinst
  constructor
  · intro y
    simp only [hlive, hinst, h.live_iff, hlist]
    constructor
    · rintro (rfl | hy | ⟨l, hl⟩)
      · exact .inr ⟨k, .inl ⟨rfl, rfl⟩⟩
      · by_cases he : y = x
        · exact .inr ⟨k, .inl ⟨rfl, he⟩⟩
        · exact .inl ⟨he, hy⟩
      · exact .inr ⟨l, .inr hl⟩
    · rintro (⟨-, hy⟩ | ⟨l, ⟨-, rfl⟩ | hl⟩)
      · exact .inr (.inl hy)
      · exact .inl rfl
      · exact .inr (.inr ⟨l, hl⟩)
  · intro l l' y hl hl'
    rcases (hinst l y).1 hl with ⟨rfl, rfl⟩ | h1 <;> rcases (hinst l' y).1 hl' with ⟨rfl, hy⟩ | h2
    · rfl
    · exact absurd h2 (hcall l')
    · exact absurd (hy ▸ h1) (hcall l)
    · exact h.one l l' y h1 h2
  · intro l y hl
    rw [hlist]
    rcases (hinst l y).1 hl with ⟨-, rfl⟩ | h1
    · exact ⟨fun hm => hm.1 rfl, hidle⟩
    · have hne : y ≠ x := by
        rintro rfl
        exact hcall l h1
      obtain ⟨h2, h3⟩ := h.apart l y h1
      exact ⟨fun hm => h2 hm.2, (hphase y hne).trans h3⟩
  · exact hnd

omit [DecidableEq Inst] in
/-- **A thread's instance leaves its call**, into `_TransList` or destroyed. -/
theorem Insts.leave (h : Insts s) {k : Caller} {x : Inst} (hx : (s.pc k).inst = some x)
    (hpc : s'.pc = Function.update s.pc k .out) (hlive : ∀ y, y ≠ x → (s'.mux.live y ↔ s.mux.live y))
    (hself : s'.mux.live x ↔ x ∈ s'.transList) (hlist : ∀ y, y ≠ x → (y ∈ s'.transList ↔ y ∈ s.transList))
    (hphase : ∀ y, y ≠ x → s'.mux.phase y = s.mux.phase y) (hnd : s'.transList.Nodup) : Insts s' := by
  have hinst := inst_out hx h
  rw [← hpc] at hinst
  constructor
  · intro y
    by_cases he : y = x
    · subst he
      simp [hself, hinst]
    · rw [hlive y he, h.live_iff, hlist y he]
      simp [hinst, he]
  · exact fun l l' y hl hl' => h.one l l' y ((hinst l y).1 hl).2 ((hinst l' y).1 hl').2
  · intro l y hl
    obtain ⟨hne, h1⟩ := (hinst l y).1 hl
    rw [hlist y hne, hphase y hne]
    exact h.apart l y h1
  · exact hnd

theorem Insts.construct (h : Insts s) {k : Caller} {t : SOCKET} {x : Inst} {mux : MuxState Inst}
    (hi : (s.pc k).inst = none) (hm : s.mux.step (.construct x t) = some mux) :
    Insts { s.setPc k (.pushBack x) with mux := mux } := by
  obtain ⟨⟨habs, -⟩, rfl⟩ := guard_some hm
  have hx : ¬ s.mux.live x := by
    unfold MuxState.live
    rw [habs]
    simp [SockPhase.live]
  have hlist : x ∉ s.transList := fun hl => hx ((h.live_iff x).2 (.inl hl))
  refine h.enter hi rfl (fun l hl => hx ((h.live_iff x).2 (.inr ⟨l, hl⟩))) rfl (fun y => ?_) (fun y => ?_)
    (Function.update_self ..) (fun y hy => Function.update_of_ne hy ..) h.nodup
  · refine MuxState.live_setPhase.trans ?_
    by_cases hy : y = x
    · simp [hy, SockPhase.live]
    · simp [hy]
  · refine (and_iff_right_of_imp ?_).symm
    rintro hy rfl
    exact hlist hy

theorem Insts.remove (h : Insts s) {k : Caller} {x : Inst} (hi : (s.pc k).inst = none) (hx : x ∈ s.transList)
    (hidle : s.mux.phase x = .idle) :
    Insts { s.setPc k (.deleting x) with transList := s.transList.filter (· ≠ x) } := by
  refine h.enter hi rfl (fun l hl => (h.apart l x hl).1 hx) rfl (fun y => ?_) (fun y => ?_) hidle (fun _ _ => rfl)
    (h.nodup.filter _)
  · refine (or_iff_right_of_imp ?_).symm
    rintro rfl
    exact (h.live_iff y).2 (.inl hx)
  · show y ∈ s.transList.filter (· ≠ x) ↔ _
    simp [and_comm]

omit [DecidableEq Inst] in
theorem Insts.push (h : Insts s) {k : Caller} {x : Inst} (hx : (s.pc k).inst = some x) :
    Insts { s.setPc k .out with transList := s.transList ++ [x] } := by
  refine h.leave hx rfl (fun _ _ => .rfl) ?_ (fun y hy => ?_) (fun _ _ => rfl)
    (h.nodup.append (List.nodup_singleton x) (List.disjoint_singleton.2 (h.apart k x hx).1))
  · exact ⟨fun _ => List.mem_append_right _ (List.mem_singleton.2 rfl), fun _ => (h.live_iff x).2 (.inr ⟨k, hx⟩)⟩
  · show y ∈ s.transList ++ [x] ↔ _
    simp [hy]

theorem Insts.delete (h : Insts s) {k : Caller} {x : Inst} {mux : MuxState Inst} (hx : (s.pc k).inst = some x)
    (hm : s.mux.step (.destroy x) = some mux) : Insts { s.setPc k .out with mux := mux } := by
  obtain ⟨-, rfl⟩ := guard_some hm
  refine h.leave hx rfl (fun y hy => ?_) ?_ (fun _ _ => .rfl) (fun y hy => Function.update_of_ne hy ..) h.nodup
  · refine MuxState.live_setPhase.trans ?_
    simp [hy]
  · refine ⟨fun hl => ?_, fun hl => absurd hl (h.apart k x hx).1⟩
    rcases MuxState.live_setPhase.1 hl with ⟨-, hn⟩ | ⟨hn, -⟩
    · cases hn
    · exact absurd rfl hn

theorem Insts.step (h : Insts s) (hs : Moved s s') : Insts s' := by
  cases hs with
  | mux hb hm =>
    obtain ⟨-, hlive, hphase⟩ := allowed_keeps hb hm
    refine ⟨fun x => (hlive x).trans (h.live_iff x), h.one, fun k x hk => ?_, h.nodup⟩
    obtain ⟨h1, h2⟩ := h.apart k x hk
    exact ⟨h1, (hphase x h1).trans h2⟩
  | openOther hm => exact h.congr (opens hm).2.1 rfl fun _ => rfl
  | closeOther _ hm => exact h.congr (closes hm).2.1 rfl fun _ => rfl
  | move _ hi hi' _ => exact h.congr rfl rfl (inst_same hi hi')
  | opened _ _ hi hi' _ hm => exact h.congr (opens hm).2.1 rfl (inst_same hi hi')
  | closed hpc hm => exact h.congr (closes hm).2.1 rfl (inst_same (by rw [hpc]; rfl) rfl)
  | listens _ _ hi _ => exact h.congr rfl rfl (inst_same hi rfl)
  | loses _ hi _ => exact h.congr rfl rfl (inst_same hi rfl)
  | listenerClosed _ _ hm => exact h.congr (closes hm).2.1 rfl fun _ => rfl
  | constructed hpc hm => exact h.construct (by rw [hpc]; rfl) hm
  | pushed hpc => exact h.push (by rw [hpc]; rfl)
  | removed hpc hx hidle => exact h.remove (by rw [hpc]; rfl) hx hidle
  | deleted hpc hm => exact h.delete (by rw [hpc]; rfl) hm

/-! ### Every run -/

theorem moved_mux (hs : Moved s s') : s'.mux = s.mux ∨ ∃ b, s.mux.step b = some s'.mux := by
  cases hs with
  | mux _ hm | openOther hm | closeOther _ hm | opened _ _ _ _ _ hm | closed _ hm | listenerClosed _ _ hm
  | constructed _ hm | deleted _ hm => exact .inr ⟨_, hm⟩
  | move | listens | loses | pushed | removed => exact .inl rfl

omit [DecidableEq Inst] in
theorem listens_update (h : ∀ k, (s.pc k).listens = true → s.hListener k = 0) {k : Caller} {pc : TransPc Inst}
    (hl : pc.listens = true → (s.pc k).listens = true ∨ s.hListener k = 0) :
    ∀ l, ((Function.update s.pc k pc) l).listens = true → s.hListener l = 0 := by
  intro l hll
  by_cases he : l = k
  · subst he
    rw [Function.update_self] at hll
    exact (hl hll).elim (h l) id
  · rw [Function.update_of_ne he] at hll
    exact h l hll

theorem Inv.fresh_step (h : Inv s) (hs : Moved s s') : ∀ k, (s'.pc k).listens = true → s'.hListener k = 0 := by
  have hf := h.fresh
  cases hs with
  | mux | openOther | closeOther => exact hf
  | move _ _ _ hl => exact listens_update hf hl
  | opened _ _ _ _ hl _ => exact listens_update hf fun h => .inl (hl h)
  | closed | loses | constructed | pushed | removed | deleted =>
    exact listens_update hf (by simp [TransPc.listens])
  | @listens k t hsock hl _ h0 =>
    intro l hll
    show Function.update s.hListener k t l = 0
    by_cases he : l = k
    · subst he
      simp [setPc, TransPc.listens] at hll
    · rw [Function.update_of_ne he]
      exact hf l (by simpa [setPc, he] using hll)
  | @listenerClosed k mux _ _ _ =>
    intro l hll
    show Function.update s.hListener k 0 l = 0
    by_cases he : l = k
    · rw [he, Function.update_self]
    · rw [Function.update_of_ne he]
      exact hf l hll

theorem Inv.lost_step (h : Inv s) (hs : Moved s s') : ∀ t ∈ s'.lost, t = 0 := by
  cases hs with
  | loses _ _ h0 =>
    intro u hu
    rcases List.mem_append.1 hu with hu | hu
    · exact h.lost u hu
    · exact (List.mem_singleton.1 hu).trans h0
  | _ => exact h.lost

theorem Inv.step (h : Inv s) (hs : Moved s s') : Inv s' where
  socks := by
    rcases moved_mux hs with he | ⟨b, hb⟩
    · rw [he]
      exact h.socks
    · exact h.socks.step hb
  covered := by
    rcases moved_mux hs with he | ⟨b, hb⟩
    · rw [he]
      exact h.covered
    · exact h.covered.step hb
  accounts := h.accounts_step hs
  fresh := h.fresh_step hs
  lost := h.lost_step hs
  insts := h.insts.step hs

omit [DecidableEq Inst] [DecidableEq Caller] in
theorem inv_start (opened : SOCKET → Bool) : Inv (start opened : TransCenter Inst Caller) where
  socks := (MuxState.inv_start opened).socks
  covered := fun _ ht => .inl ht
  accounts := (Accounts.init _).congr fun j => by cases j <;> rfl
  fresh := fun _ hk => by cases hk
  lost := fun _ ht => by cases ht
  insts := ⟨fun x => by simp [MuxState.live, start, MuxState.start, SockPhase.live, TransPc.inst],
    fun _ _ _ hk => (by cases hk), fun _ _ hk => (by cases hk), List.nodup_nil⟩

theorem inv_reach (h : (machine Inst Caller).Reach s) : Inv s :=
  Machine.Reach.invariant (by rintro s ⟨opened, rfl⟩; exact inv_start opened) (fun _ _ _ hi hs => hi.step (moved hs)) h

/-- A thread's descriptors: its listener, and the one in its call. -/
def Has (s : TransCenter Inst Caller) (k : Caller) (t : SOCKET) : Prop :=
  (s.hListener k = t ∧ t ≠ 0) ∨ (s.pc k).sock = some t

omit [DecidableEq Inst] [DecidableEq Caller] in
theorem has_iff {k : Caller} {t : SOCKET} : s.Has k t ↔ (t, ()) ∈ s.held (some k) := by
  rw [held_some, Has]
  by_cases h0 : s.hListener k = 0
  · rw [h0]
    simp only [if_pos, List.nil_append, List.mem_map, Option.mem_toList, Prod.mk.injEq, and_true, exists_eq_right]
    exact or_iff_right fun hn => hn.2 hn.1.symm
  · simp only [if_neg h0, List.mem_map, List.mem_append, List.mem_singleton, Option.mem_toList, Prod.mk.injEq,
      and_true, exists_eq_right]
    refine or_congr_left ⟨fun hn => hn.1.symm, fun ht => ⟨ht.symm, ?_⟩⟩
    rw [ht]
    exact h0

omit [DecidableEq Inst] [DecidableEq Caller] in
theorem lost_iff {t : SOCKET} : t ∈ s.lost ↔ (t, ()) ∈ s.held none := by simp [held]

omit [DecidableEq Inst] [DecidableEq Caller] in
theorem otherSocks_iff {t : SOCKET} : s.mux.others t = true ↔ s.otherSocks t = some () := by simp [otherSocks]

omit [DecidableEq Inst] [DecidableEq Caller] in
/-- **What a thread or nobody has**, no instance has. -/
theorem Inv.apart (h : Inv s) {j : Option Caller} {t : SOCKET} (ht : (t, ()) ∈ s.held j) :
    s.base t = none ∧ t ∉ s.mux.socketList ∧ ∀ x, s.mux.live x → s.mux.sock x ≠ t := by
  have ho := otherSocks_iff.2 (h.accounts.held_open j t () ht)
  refine ⟨h.accounts.held_new j t () ht, fun hm => ?_, ?_⟩
  · rw [(h.socks.list t hm).2] at ho
    cases ho
  · rintro x hx rfl
    rw [(h.socks.own x hx).2.1] at ho
    cases ho

omit [DecidableEq Inst] [DecidableEq Caller] in
theorem Inv.opened_iff (h : Inv s) (t : SOCKET) : s.mux.opened t = true ↔ s.base t = some () ∨ (∃ k, s.Has k t) ∨
    t ∈ s.lost ∨ (∃ x, s.mux.live x ∧ s.mux.sock x = t) ∨ t ∈ s.mux.socketList := by
  constructor
  · intro ht
    rcases h.covered t ht with ho | hx | hl
    · rcases h.accounts.owner t () (otherSocks_iff.1 ho) with hb | ⟨_ | k, hj⟩
      · exact .inl hb
      · exact .inr (.inr (.inl (lost_iff.2 hj)))
      · exact .inr (.inl ⟨k, has_iff.2 hj⟩)
    · exact .inr (.inr (.inr (.inl hx)))
    · exact .inr (.inr (.inr (.inr hl)))
  · have hother : ∀ u, s.otherSocks u = some () → s.mux.opened u = true := fun u hu =>
      h.socks.others u (otherSocks_iff.2 hu)
    rintro (hb | ⟨k, hk⟩ | hl | ⟨x, hx, rfl⟩ | hl)
    · exact hother t (h.accounts.base_open t () hb)
    · exact hother t (h.accounts.held_open _ t () (has_iff.1 hk))
    · exact hother t (h.accounts.held_open _ t () (lost_iff.1 hl))
    · exact (h.socks.own x hx).1
    · exact (h.socks.list t hl).1

/-- **Every socket has one owner**: in every run a descriptor is open exactly when the rest of the process has it, or a
thread has it as its listener or in a call, or it is the listener on 0 that nobody has, or an instance has it, or it
waits in `_SocketList`; and no descriptor of a thread is anybody else's, so what a call that fails closes is its own.
The instances are those of `_TransList` and of the calls.  Once no thread has anything, `_TransList` and `_SocketList`
are empty and no listener was on 0, what is open is what the rest of the process has. -/
theorem sockets_owned (h : (machine Inst Caller).Reach s) :
    (∀ t, s.mux.opened t = true ↔ s.base t = some () ∨ (∃ k, s.Has k t) ∨ t ∈ s.lost ∨
      (∃ x, s.mux.live x ∧ s.mux.sock x = t) ∨ t ∈ s.mux.socketList) ∧
    (∀ k t, s.Has k t → (∀ l, s.Has l t → l = k) ∧ s.base t = none ∧ t ∉ s.lost ∧ t ∉ s.mux.socketList ∧
      ∀ x, s.mux.live x → s.mux.sock x ≠ t) ∧
    (s.lost = [] ∨ s.lost = [0]) ∧
    (s.transList.Nodup ∧ ∀ x, s.mux.live x ↔ x ∈ s.transList ∨ ∃ k, (s.pc k).inst = some x) ∧
    ((∀ k, s.pc k = .out ∧ s.hListener k = 0) → s.transList = [] → s.mux.socketList = [] → s.lost = [] →
      ∀ t, s.mux.opened t = true ↔ s.base t = some ()) := by
  have hi := inv_reach h
  refine ⟨hi.opened_iff, fun k t hk => ?_, ?_, ⟨hi.insts.nodup, hi.insts.live_iff⟩, fun hout hT hL hlost t => ?_⟩
  · have hk' := has_iff.1 hk
    obtain ⟨h1, h2, h3⟩ := hi.apart hk'
    refine ⟨fun l hl => ?_, h1, fun hl => ?_, h2, h3⟩
    · exact Option.some.inj (hi.accounts.alone _ _ t () () (has_iff.1 hl) hk')
    · cases hi.accounts.alone _ _ t () () (lost_iff.1 hl) hk'
  · have hnd := hi.accounts.nodup none
    have hz := hi.lost
    unfold held at hnd
    rw [List.map_map] at hnd
    match hl : s.lost with
    | [] => exact .inl rfl
    | [t] => exact .inr (by rw [hz t (by rw [hl]; exact List.mem_singleton.2 rfl)])
    | t :: u :: l =>
      rw [hl] at hz hnd
      have ht := hz t (by simp)
      have hu := hz u (by simp)
      simp [ht, hu] at hnd
  · rw [hi.opened_iff]
    refine or_iff_left ?_
    rintro (⟨k, ⟨rfl, hn⟩ | hs⟩ | hl | ⟨x, hx, -⟩ | hl)
    · exact hn (hout k).2
    · rw [(hout k).1] at hs
      cases hs
    · rw [hlost] at hl
      cases hl
    · rcases (hi.insts.live_iff x).1 hx with hm | ⟨k, hk⟩
      · rw [hT] at hm
        cases hm
      · rw [(hout k).1] at hk
        cases hk
    · rw [hL] at hl
      cases hl

/-- A listener, a connection that is accepted and one that is not, a connection out that fails after its socket is made,
and the end of all of them. -/
def serverRun : List (TransCenterStep Nat Bool) := [.call false .initListener ⟨true, true⟩, .socket false (some 3),
  .bind false true, .listen false true, .call true .connectOut ⟨true, true⟩, .call false .waitConnectIn ⟨true, true⟩,
  .socket true (some 4), .select false true, .accept false (some 5), .connect true false, .newInst false (some 0),
  .close true, .pushBack false, .mux (.start 0), .mux (.register 0), .call false .waitConnectIn ⟨true, true⟩,
  .select false true, .accept false (some 4), .newInst false none, .close false, .finishListener false,
  .mux (.unregister 0), .mux (.stopped 0), .finishTransInst true 0, .delete true, .mux .loopTest, .mux .cleanup]

/-- At the end nobody has anything. -/
def released (s : TransCenter Nat Bool) : Bool :=
  [false, true].all (fun k => s.pc k == .out && s.hListener k == 0) && s.transList.isEmpty &&
    s.mux.socketList.isEmpty && s.lost.isEmpty

theorem sockets_owned_server : ∃ s, (machine Nat Bool).run (start fun t => decide (t ≤ 2)) serverRun = some s ∧
    ∀ t, s.mux.opened t = true ↔ s.base t = some () := by
  have hrun : ((machine Nat Bool).run (start fun t => decide (t ≤ 2)) serverRun).any released = true := by
    decide +kernel
  obtain ⟨s, hs, hr⟩ := (Option.any_eq_true ..).1 hrun
  simp only [released, List.all_cons, List.all_nil, Bool.and_true, Bool.and_eq_true, beq_iff_eq, List.isEmpty_iff] at hr
  obtain ⟨⟨⟨hk, hT⟩, hL⟩, hlost⟩ := hr
  have hout : ∀ k, s.pc k = .out ∧ s.hListener k = 0
    | false => hk.1
    | true => hk.2
  exact ⟨s, hs, (sockets_owned (.run (.init ⟨_, rfl⟩) hs)).2.2.2.2 hout hT hL hlost⟩

end TransCenter

end DevMgr
