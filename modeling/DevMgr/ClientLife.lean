import DevMgr.CommonServer
/-!
# ClientLife — the life of a client of the message server

A client is at one `Stage`, and every thread's view of it (`ClientView`) is that stage's: where its record is, what its
transport and its observers are, which of its handler's functions were called.
-/
namespace DevMgr

open Machines

inductive Stage where
  | foreign
  | creating (pc : CreatePc)
  | listed
  | ended
  | freeing (byUnload : Bool) (pc : FreePc)
  | gone
  deriving DecidableEq, Repr

/-- What there is of one client: how often it is in `_ClientList`, in `EndList` and in the tables' lists, and where the
threads are with it. -/
structure ClientView where
  accepted : Bool
  phase : SockPhase
  create : Option CreatePc
  listed : Nat
  ended : Nat
  free : Bool → Option FreePc
  observed : Table → Nat
  bSessionEnd : Bool
  pEndEvent : Bool
  frees : Nat
  calls : List HandlerEvent

def ClientView.withObserved (v : ClientView) (observed : Table → Nat) : ClientView := { v with observed := observed }

def ClientView.withFree (v : ClientView) (free : Bool → Option FreePc) : ClientView := { v with free := free }

/-- The calls of a handler that was told `n` times that it can receive, and is not stopped. -/
def begunCalls (n : Nat) : List HandlerEvent := .init :: .onStarted :: List.replicate n .onRecvReady

/-- All the calls of such a handler. -/
def lifeCalls (n : Nat) : List HandlerEvent := begunCalls n ++ [.onStopped, .fini, .deleted]

/-- No `Notify` after `Fini`. -/
def NoLateNotify (es : List HandlerEvent) : Prop := .notify ∉ es.dropWhile (· ≠ .fini)

def Table.idx : Table → Nat
  | .dev => 0
  | .app => 1
  | .cmd => 2

namespace Stage

def accepted : Stage → Bool
  | .foreign => false
  | _ => true

def phase : Stage → SockPhase
  | .foreign => .absent
  | .creating .register => .started
  | .creating _ => .idle
  | .listed | .ended | .freeing _ .unregister => .registered
  | .freeing _ .onStopped => .unregistered
  | .freeing .. => .idle
  | .gone => .destroyed

def create : Stage → Option CreatePc
  | .creating pc => some pc
  | _ => none

def inList : Stage → Nat
  | .creating .pushBack => 0
  | .creating _ | .listed => 1
  | _ => 0

def inEndList : Stage → Nat
  | .ended => 1
  | _ => 0

def free : Stage → Bool → Option FreePc
  | .freeing b pc, b' => if b = b' then some pc else none
  | _, _ => none

def observed : Stage → Table → Nat
  | .creating .register, _ | .creating .onStarted, _ | .listed, _ | .ended, _ | .freeing _ .unregister, _
  | .freeing _ .onStopped, _ => 1
  | .creating (.observe t), t' => if t'.idx < t.idx then 1 else 0
  | .freeing _ (.unobserve t), t' => if t.idx ≤ t'.idx then 1 else 0
  | _, _ => 0

def pEndEvent : Stage → Bool
  | .foreign | .creating .pushBack | .creating .init | .freeing _ .deleteHandler | .freeing _ .finishTransInst
  | .gone => false
  | _ => true

/-- Its session can have ended. -/
def served : Stage → Bool
  | .foreign | .creating _ => false
  | _ => true

def frees : Stage → Nat
  | .freeing .. | .gone => 1
  | _ => 0

def calls (n : Nat) : Stage → List HandlerEvent
  | .foreign | .creating .pushBack | .creating .init => []
  | .creating (.observe _) | .creating .onStarted => [.init]
  | .creating .register => [.init, .onStarted]
  | .listed | .ended | .freeing _ .unregister | .freeing _ .onStopped => begunCalls n
  | .freeing _ (.unobserve _) | .freeing _ .fini => begunCalls n ++ [.onStopped]
  | .freeing _ .deleteHandler => begunCalls n ++ [.onStopped, .fini]
  | .freeing _ .finishTransInst | .gone => lifeCalls n

theorem calls_initial (n : Nat) (st : Stage) : st.calls n <+: lifeCalls n := by
  cases st with
  | creating pc => cases pc <;> simp [calls, lifeCalls, begunCalls]
  | freeing b pc => cases pc <;> simp [calls, lifeCalls]
  | _ => simp [calls, lifeCalls]

end Stage

/-- The view is that of a client at the stage. -/
structure Fits (v : ClientView) (st : Stage) : Prop where
  accepted : v.accepted = st.accepted
  phase : v.phase = st.phase
  create : v.create = st.create
  listed : v.listed = st.inList
  ended : v.ended = st.inEndList
  free : ∀ b, v.free b = st.free b
  observed : ∀ t, v.observed t = st.observed t
  pEndEvent : v.pEndEvent = st.pEndEvent
  served : v.bSessionEnd = true → st.served = true
  frees : v.frees = st.frees
  calls : ∃ n, v.calls.filter (· ≠ .notify) = st.calls n
  late : NoLateNotify v.calls

section
variable {Inst : Type} [DecidableEq Inst]

def AcceptPc.on : AcceptPc Inst → Inst → Option CreatePc
  | .creating x pc, y => if x = y then some pc else none
  | _, _ => none

def CleanupPc.on : CleanupPc Inst → Inst → Option FreePc
  | .freeing x pc _, y => if x = y then some pc else none
  | _, _ => none

omit [DecidableEq Inst] in
def CleanupPc.endList : CleanupPc Inst → List Inst
  | .looping endList | .freeing _ _ endList => endList
  | _ => []

omit [DecidableEq Inst] in
/-- The cleanup thread will look at the list before it blocks, or is gone. -/
def CleanupPc.looking : CleanupPc Inst → Bool
  | .testing | .scanning | .left => true
  | _ => false

def UnloadPc.on : UnloadPc Inst → Inst → Option FreePc
  | .freeing x pc, y => if x = y then some pc else none
  | _, _ => none

def CommonServer.view (s : CommonServer Inst) (x : Inst) : ClientView where
  accepted := x ∈ s.accepted
  phase := if x ∈ s.accepted then s.mux.phase x else .absent
  create := s.accept.on x
  listed := s.clientList.count x
  ended := s.cleanup.endList.count x
  free b := if b then s.unload.on x else s.cleanup.on x
  observed t := (s.observerList t).count x
  bSessionEnd := s.bSessionEnd x
  pEndEvent := s.pEndEvent x
  frees := s.frees x
  calls := s.calls x

end

/-! ### The calls -/

theorem NoLateNotify.append {es : List HandlerEvent} {e : HandlerEvent} (h : NoLateNotify es) (he : e ≠ .notify) :
    NoLateNotify (es ++ [e]) := by
  unfold NoLateNotify at h ⊢
  rw [List.dropWhile_append]
  split
  · intro hm
    exact he (List.mem_singleton.1 ((List.dropWhile_sublist _).mem hm)).symm
  · rw [List.mem_append, List.mem_singleton, not_or]
    exact ⟨h, Ne.symm he⟩

theorem noLateNotify_of_not_fini {es : List HandlerEvent} (h : .fini ∉ es) : NoLateNotify es := by
  have hall : ∀ e ∈ es, decide (e ≠ .fini) = true := by
    intro e he
    rw [decide_eq_true_iff]
    rintro rfl
    exact h he
  unfold NoLateNotify
  rw [← List.append_nil es, List.dropWhile_append_of_pos hall]
  exact List.not_mem_nil

theorem fini_mem_filter {es : List HandlerEvent} (h : .fini ∈ es) : .fini ∈ es.filter (· ≠ .notify) :=
  List.mem_filter.2 ⟨h, by decide⟩

namespace Fits

variable {v : ClientView} {st : Stage}

/-- **One more call**, the one the next stage wants. -/
theorem call (h : Fits v st) (e : HandlerEvent) (st' : Stage) (he : e ≠ .notify)
    (hnext : ∀ n, ∃ n', st'.calls n' = st.calls n ++ [e]) :
    (∃ n, (v.calls ++ [e]).filter (· ≠ .notify) = st'.calls n) ∧ NoLateNotify (v.calls ++ [e]) := by
  obtain ⟨n, hn⟩ := h.calls
  obtain ⟨n', hn'⟩ := hnext n
  refine ⟨⟨n', ?_⟩, h.late.append he⟩
  rw [hn', List.filter_append, hn]
  simp [he]

theorem of_create {pc : CreatePc} (h : Fits v st) (hc : v.create = some pc) : st = .creating pc := by
  rw [h.create] at hc
  cases st <;> simp_all [Stage.create]

theorem of_free (h : Fits v st) (b : Bool) (pc : FreePc) (hf : v.free b = some pc) : st = .freeing b pc := by
  rw [h.free] at hf
  cases st <;> simp_all [Stage.free]

theorem of_ended (h : Fits v st) (he : 0 < v.ended) : st = .ended := by
  rw [h.ended] at he
  cases st <;> simp_all [Stage.inEndList]

theorem of_listed (h : Fits v st) (hl : 0 < v.listed) (hc : v.create = none) : st = .listed := by
  rw [h.listed] at hl
  rw [h.create] at hc
  cases st <;> simp_all [Stage.inList, Stage.create]

theorem of_registered (h : Fits v st) (hp : v.phase = .registered) :
    st = .listed ∨ st = .ended ∨ ∃ b, st = .freeing b .unregister := by
  rw [h.phase] at hp
  cases st with
  | creating pc => cases pc <;> cases hp
  | freeing b pc => cases pc <;> first | exact .inr (.inr ⟨b, rfl⟩) | cases hp
  | listed => exact .inl rfl
  | ended => exact .inr (.inl rfl)
  | _ => cases hp

theorem of_foreign (h : Fits v st) (hp : v.phase = .absent) : st = .foreign := by
  rw [h.phase] at hp
  cases st with
  | creating pc => cases pc <;> cases hp
  | freeing b pc => cases pc <;> cases hp
  | foreign => rfl
  | _ => cases hp

/-- **A handler that is still in a table's list** was not finished. -/
theorem not_fini (h : Fits v st) {t : Table} (ho : 0 < v.observed t) : .fini ∉ v.calls := by
  intro hm
  obtain ⟨n, hn⟩ := h.calls
  have hf := fini_mem_filter hm
  rw [hn] at hf
  rw [h.observed] at ho
  cases st with
  | creating pc => cases pc <;> simp_all [Stage.observed, Stage.calls]
  | freeing b pc => cases pc <;> simp_all [Stage.observed, Stage.calls, begunCalls]
  | _ => simp_all [Stage.observed, Stage.calls, begunCalls]

end Fits

namespace CommonServer

variable {Inst : Type} [DecidableEq Inst] {s s' : CommonServer Inst} {x y : Inst}

/-! ### What the parts of a step do to the views -/

@[simp] theorem view_log (e : HandlerEvent) :
    (s.log x e).view y = if y = x then { s.view y with calls := s.calls y ++ [e] } else s.view y := by
  have hv : (s.log x e).view y = { s.view y with calls := Function.update s.calls x (s.calls x ++ [e]) y } := rfl
  rw [hv, Function.update_apply]
  split
  · rename_i h
    rw [h]
  · rfl

@[simp] theorem view_setEndEvent (b : Bool) :
    (s.setEndEvent x b).view y = if y = x then { s.view y with pEndEvent := b } else s.view y := by
  have hv : (s.setEndEvent x b).view y = { s.view y with pEndEvent := Function.update s.pEndEvent x b y } := rfl
  rw [hv, Function.update_apply]
  split <;> rfl

theorem view_endPc (e : EndPc Inst) : { s with endPc := e }.view y = s.view y := rfl

theorem view_notifying (f : Table → Option (List Inst)) : { s with notifying := f }.view y = s.view y := rfl

@[simp] theorem view_countFree :
    (s.countFree x).view y = if y = x then { s.view y with frees := s.frees y + 1 } else s.view y := by
  have hv : (s.countFree x).view y = { s.view y with frees := Function.update s.frees x (s.frees x + 1) y } := rfl
  rw [hv, Function.update_apply]
  split
  · rename_i h
    rw [h]
  · rfl

theorem calls_setMux {a : MuxStep Inst} (h : s.setMux a = some s') : s'.calls = s.calls := by
  obtain ⟨_, -, rfl⟩ := Option.map_eq_some_iff.1 h
  rfl

/-- A step of the mux thread's machine that leaves the clients' transports. -/
theorem view_setMux {a : MuxStep Inst} (h : s.setMux a = some s')
    (ha : ∀ x p p', MuxState.moves a = some (x, p, p') → x ∉ s.accepted) : s'.view y = s.view y := by
  obtain ⟨mux, hmux, rfl⟩ := Option.map_eq_some_iff.1 h
  have hp : y ∈ s.accepted → mux.phase y = s.mux.phase y := by
    intro hy
    cases hm : MuxState.moves a with
    | none => rw [MuxState.phase_stays hmux hm]
    | some m =>
      obtain ⟨x, p, p'⟩ := m
      rw [(MuxState.phase_moves hmux hm).2, Function.update_of_ne]
      rintro rfl
      exact ha _ p p' hm hy
  unfold view
  split
  · rw [hp ‹_›]
  · rfl

/-- **A step of a client's transport.** -/
theorem view_setMux_on {a : MuxStep Inst} {p p' : SockPhase} (h : s.setMux a = some s')
    (hm : MuxState.moves a = some (x, p, p')) (hx : x ∈ s.accepted) :
    (s.view x).phase = p ∧ ∀ y, s'.view y = if y = x then { s.view y with phase := p' } else s.view y := by
  obtain ⟨mux, hmux, rfl⟩ := Option.map_eq_some_iff.1 h
  obtain ⟨h1, h2⟩ := MuxState.phase_moves hmux hm
  refine ⟨by simp [view, hx, h1], fun y => ?_⟩
  by_cases hy : y = x
  · subst hy
    simp [view, hx, h2]
  · simp [view, h2, hy]

theorem Fits.registered {st : Stage} (h : Fits (s.view x) st) (hx : x ∈ s.accepted) (hp : s.mux.phase x = .registered) :
    st = .listed ∨ st = .ended ∨ ∃ b, st = .freeing b .unregister :=
  h.of_registered (by simp [view, hx, hp])

/-- A step about one client. -/
theorem views_of (x : Inst) (h : ∀ x, ∃ st, Fits (s.view x) st) (hother : ∀ y, y ≠ x → s'.view y = s.view y)
    (hx : ∀ st, Fits (s.view x) st → ∃ st', Fits (s'.view x) st') : ∀ x, ∃ st, Fits (s'.view x) st := by
  intro y
  obtain ⟨st, hst⟩ := h y
  by_cases hy : y = x
  · subst hy
    exact hx st hst
  · exact ⟨st, by rwa [hother y hy]⟩

theorem view_observerList (f : Table → List Inst) :
    { s with observerList := f }.view y = (s.view y).withObserved fun t => (f t).count y := rfl

theorem view_registerObserver {t : Table} (h : (s.view x).observed t = 0) : (s.registerObserver t x).view y =
    if y = x then (s.view y).withObserved (Function.update (s.view y).observed t 1) else s.view y := by
  have hm : (s.observerList t).count x = 0 := h
  rw [registerObserver, if_neg (List.count_eq_zero.1 hm), view_observerList]
  split
  · rename_i hy
    subst hy
    refine congrArg (s.view y).withObserved (funext fun t' => ?_)
    by_cases ht : t' = t
    · subst ht
      simp [hm]
    · simp [ht, view]
  · rename_i hy
    refine congrArg (s.view y).withObserved (funext fun t' => ?_)
    by_cases ht : t' = t
    · subst ht
      simp [Ne.symm hy]
    · simp [ht]

theorem view_unregisterObserver {t : Table} : (s.unregisterObserver t x).view y =
    if y = x then (s.view y).withObserved (Function.update (s.view y).observed t ((s.view y).observed t - 1))
    else s.view y := by
  rw [unregisterObserver, view_observerList]
  split
  · rename_i hy
    subst hy
    refine congrArg (s.view y).withObserved (funext fun t' => ?_)
    by_cases ht : t' = t
    · subst ht
      simp [view]
    · simp [ht, view]
  · rename_i hy
    refine congrArg (s.view y).withObserved (funext fun t' => ?_)
    by_cases ht : t' = t
    · subst ht
      simp [hy]
    · simp [ht]

/-- **`CreateClientRec` takes a client through its stages.** -/
theorem fits_createClientRec {pc : CreatePc} {pc' : Option CreatePc} (hf : Fits (s.view x) (.creating pc))
    (h : s.createClientRec x pc = some (s', pc')) :
    (∀ y, y ≠ x → s'.view y = s.view y) ∧ Fits { s'.view x with create := pc' } (pc'.elim .listed .creating) := by
  have hacc : x ∈ s.accepted := by simpa [view, Stage.accepted] using hf.accepted
  cases pc with
  | pushBack =>
    obtain ⟨rfl, rfl⟩ := Prod.mk.inj (Option.some.inj h)
    constructor
    · intro y hy
      simp [view, Ne.symm hy]
    · have hl : (s.clientList ++ [x]).count x = 1 := by
        have : s.clientList.count x = 0 := hf.listed
        simp [this]
      exact { hf with create := rfl, listed := hl }
  | init =>
    obtain ⟨rfl, rfl⟩ := Prod.mk.inj (Option.some.inj h)
    constructor
    · intro y hy
      simp [hy]
    · obtain ⟨h1, h2⟩ := hf.call .init (.creating (.observe .dev)) (by decide) fun n => ⟨n, rfl⟩
      simp only [view_log, view_setEndEvent, if_true]
      exact { hf with create := rfl, pEndEvent := rfl, calls := h1, late := h2 }
  | observe t =>
    obtain ⟨-, h⟩ := guard_some h
    obtain ⟨rfl, rfl⟩ := Prod.mk.inj h
    have h0 : (s.view x).observed t = 0 := (hf.observed t).trans (if_neg (Nat.lt_irrefl _))
    constructor
    · intro y hy
      simp [view_registerObserver h0, hy]
    · rw [view_registerObserver h0, if_pos rfl]
      have hob : ∀ t', Function.update (s.view x).observed t 1 t' =
          (Stage.creating (t.next.elim .onStarted CreatePc.observe)).observed t' := by
        intro t'
        rw [Function.update_apply, hf.observed]
        cases t <;> cases t' <;> rfl
      cases t <;> exact { hf with create := rfl, observed := hob }
  | onStarted =>
    obtain ⟨t, ht, h⟩ := Option.map_eq_some_iff.1 h
    obtain ⟨rfl, rfl⟩ := Prod.mk.inj h
    obtain ⟨-, hv⟩ := view_setMux_on ht rfl hacc
    constructor
    · intro y hy
      simp [hv, hy]
    · obtain ⟨h1, h2⟩ := hf.call .onStarted (.creating .register) (by decide) fun n => ⟨n, rfl⟩
      rw [view_log, if_pos rfl, hv, if_pos rfl, calls_setMux ht]
      exact { hf with phase := rfl, create := rfl, calls := h1, late := h2 }
  | register =>
    obtain ⟨t, ht, h⟩ := Option.map_eq_some_iff.1 h
    obtain ⟨rfl, rfl⟩ := Prod.mk.inj h
    obtain ⟨-, hv⟩ := view_setMux_on ht rfl hacc
    constructor
    · intro y hy
      simp [hv, hy]
    · rw [hv, if_pos rfl]
      exact { hf with phase := rfl, create := rfl, served := fun _ => rfl, calls := ⟨0, hf.calls.choose_spec⟩ }

/-- **`FreeClientRec` takes a client through its stages.** -/
theorem fits_freeClientRec {b : Bool} {pc : FreePc} {pc' : Option FreePc} (hf : Fits (s.view x) (.freeing b pc))
    (h : s.freeClientRec x pc = some (s', pc')) : (∀ y, y ≠ x → s'.view y = s.view y) ∧
      Fits ((s'.view x).withFree fun b' => if b = b' then pc' else none) (pc'.elim .gone (.freeing b)) := by
  have hacc : x ∈ s.accepted := by simpa [view, Stage.accepted] using hf.accepted
  cases pc with
  | unregister =>
    obtain ⟨t, ht, h⟩ := Option.map_eq_some_iff.1 h
    obtain ⟨rfl, rfl⟩ := Prod.mk.inj h
    obtain ⟨-, hv⟩ := view_setMux_on ht rfl hacc
    constructor
    · intro y hy
      simp [hv, hy]
    · rw [hv, if_pos rfl]
      exact { hf with phase := rfl, free := fun _ => rfl }
  | onStopped =>
    obtain ⟨t, ht, h⟩ := Option.map_eq_some_iff.1 h
    obtain ⟨rfl, rfl⟩ := Prod.mk.inj h
    obtain ⟨-, hv⟩ := view_setMux_on ht rfl hacc
    constructor
    · intro y hy
      simp [hv, hy]
    · obtain ⟨h1, h2⟩ := hf.call .onStopped (.freeing b (.unobserve .dev)) (by decide) fun n => ⟨n, rfl⟩
      rw [view_log, if_pos rfl, hv, if_pos rfl, calls_setMux ht]
      exact { hf with phase := rfl, free := fun _ => rfl, calls := h1, late := h2 }
  | unobserve t =>
    obtain ⟨-, h⟩ := guard_some h
    obtain ⟨rfl, rfl⟩ := Prod.mk.inj h
    constructor
    · intro y hy
      simp [view_unregisterObserver, hy]
    · rw [view_unregisterObserver, if_pos rfl]
      have hob : ∀ t', Function.update (s.view x).observed t ((s.view x).observed t - 1) t' =
          (Stage.freeing b (t.next.elim .fini FreePc.unobserve)).observed t' := by
        intro t'
        rw [Function.update_apply, hf.observed, hf.observed]
        cases t <;> cases t' <;> rfl
      cases t <;> exact { hf with free := fun _ => rfl, observed := hob }
  | fini =>
    obtain ⟨rfl, rfl⟩ := Prod.mk.inj (Option.some.inj h)
    constructor
    · intro y hy
      simp [hy]
    · obtain ⟨h1, h2⟩ := hf.call .fini (.freeing b .deleteHandler) (by decide) fun n => ⟨n, by
        simp [Stage.calls]⟩
      simp only [view_log, view_setEndEvent, if_true]
      exact { hf with free := fun _ => rfl, pEndEvent := rfl, calls := h1, late := h2 }
  | deleteHandler =>
    obtain ⟨rfl, rfl⟩ := Prod.mk.inj (Option.some.inj h)
    constructor
    · intro y hy
      simp [hy]
    · obtain ⟨h1, h2⟩ := hf.call .deleted (.freeing b .finishTransInst) (by decide) fun n => ⟨n, by
        simp [Stage.calls, lifeCalls]⟩
      simp only [view_log, if_true]
      exact { hf with free := fun _ => rfl, calls := h1, late := h2 }
  | finishTransInst =>
    obtain ⟨t, ht, h⟩ := Option.map_eq_some_iff.1 h
    obtain ⟨rfl, rfl⟩ := Prod.mk.inj h
    obtain ⟨-, hv⟩ := view_setMux_on ht rfl hacc
    constructor
    · intro y hy
      simp [hv, hy]
    · rw [hv, if_pos rfl]
      exact { hf with phase := rfl, free := fun b' => by simp [Stage.free, ClientView.withFree] }

/-! ### Every thread's step -/

/-- A session that ended is seen: its post is to come or in the semaphore, or the cleanup thread is about to look. -/
def Wake (s : CommonServer Inst) : Prop :=
  ∀ x ∈ s.clientList, s.bSessionEnd x = true →
    0 < s.hEndEvent ∨ s.cleanup.looking = true ∨ s.endPc.on = some x

/-- What `Unload` waited for. -/
def Joined (s : CommonServer Inst) : Prop :=
  match s.unload with
  | .uncalled | .joinAccept => True
  | .posting | .joinCleanup => s.accept = .left
  | .looping | .freeing .. => s.accept = .left ∧ s.cleanup = .left
  | .returned => s.accept = .left ∧ s.cleanup = .left ∧ s.clientList = []

structure Inv (s : CommonServer Inst) : Prop where
  mux : s.mux.Inv
  clients : ∀ x, ∃ st, Fits (s.view x) st
  ending : ∀ x, s.endPc.on = some x → x ∈ s.accepted ∧ ∃ rest fds, s.mux.pc = .recving x rest fds
  heard : ∀ t l, s.notifying t = some l → ∀ x ∈ l, x ∈ s.observerList t
  wake : Wake s
  joined : Joined s

/-- What the steps of `CreateClientRec` and `FreeClientRec` leave to the other threads. -/
structure Aside (s s' : CommonServer Inst) : Prop where
  mux : s'.mux = s.mux ∨ ∃ a, a ≠ .recvDone ∧ s.mux.step a = some s'.mux
  hEndEvent : s'.hEndEvent = s.hEndEvent
  bSessionEnd : s'.bSessionEnd = s.bSessionEnd
  accepted : s'.accepted = s.accepted
  notifying : s'.notifying = s.notifying
  observerList : ∀ t, s.notifying t ≠ none → ∀ x ∈ s.observerList t, x ∈ s'.observerList t
  accept : s'.accept = s.accept
  endPc : s'.endPc = s.endPc
  cleanup : s'.cleanup = s.cleanup
  unload : s'.unload = s.unload

theorem Aside.refl (s : CommonServer Inst) : Aside s s :=
  ⟨.inl rfl, rfl, rfl, rfl, rfl, fun _ _ _ => id, rfl, rfl, rfl, rfl⟩

theorem aside_setMux {a : MuxStep Inst} (ha : a ≠ .recvDone) (h : s.setMux a = some s') :
    Aside s s' ∧ s'.clientList = s.clientList := by
  obtain ⟨mux, hmux, rfl⟩ := Option.map_eq_some_iff.1 h
  exact ⟨{ Aside.refl s with mux := .inr ⟨a, ha, hmux⟩ }, rfl⟩

theorem aside_registerObserver {t : Table} : Aside s (s.registerObserver t x) ∧
    (s.registerObserver t x).clientList = s.clientList := by
  unfold registerObserver
  split
  · exact ⟨{ Aside.refl s with }, rfl⟩
  · refine ⟨{ Aside.refl s with observerList := fun t' _ y hy => ?_ }, rfl⟩
    by_cases ht : t' = t
    · subst ht
      simp [hy]
    · simpa [ht] using hy

theorem aside_createClientRec {pc : CreatePc} {pc' : Option CreatePc} (h : s.createClientRec x pc = some (s', pc')) :
    Aside s s' ∧ ∀ y ∈ s'.clientList, y ∈ s.clientList ∨ (y = x ∧ pc = .pushBack) := by
  cases pc with
  | pushBack =>
    obtain ⟨rfl, -⟩ := Prod.mk.inj (Option.some.inj h)
    exact ⟨{ Aside.refl s with }, fun y hy => by simpa using hy⟩
  | init =>
    obtain ⟨rfl, -⟩ := Prod.mk.inj (Option.some.inj h)
    exact ⟨{ Aside.refl s with }, fun y => .inl⟩
  | observe t =>
    obtain ⟨-, h⟩ := guard_some h
    obtain ⟨rfl, -⟩ := Prod.mk.inj h
    exact ⟨aside_registerObserver.1, fun y hy => .inl (by rwa [aside_registerObserver.2] at hy)⟩
  | onStarted =>
    obtain ⟨t, ht, h⟩ := Option.map_eq_some_iff.1 h
    obtain ⟨rfl, -⟩ := Prod.mk.inj h
    obtain ⟨h1, h2⟩ := aside_setMux (by simp) ht
    exact ⟨{ h1 with }, fun y hy => .inl (h2 ▸ hy)⟩
  | register =>
    obtain ⟨t, ht, h⟩ := Option.map_eq_some_iff.1 h
    obtain ⟨rfl, -⟩ := Prod.mk.inj h
    obtain ⟨h1, h2⟩ := aside_setMux (by simp) ht
    exact ⟨h1, fun y hy => .inl (h2 ▸ hy)⟩

theorem aside_freeClientRec {pc : FreePc} {pc' : Option FreePc} (h : s.freeClientRec x pc = some (s', pc')) :
    Aside s s' ∧ s'.clientList = s.clientList := by
  cases pc with
  | unobserve t =>
    obtain ⟨hn, h⟩ := guard_some h
    obtain ⟨rfl, -⟩ := Prod.mk.inj h
    refine ⟨{ Aside.refl s with observerList := fun t' ht' y hy => ?_ }, rfl⟩
    have ht : t' ≠ t := by
      rintro rfl
      exact ht' hn
    simpa [unregisterObserver, ht] using hy
  | onStopped =>
    obtain ⟨t, ht, h⟩ := Option.map_eq_some_iff.1 h
    obtain ⟨rfl, -⟩ := Prod.mk.inj h
    obtain ⟨h1, h2⟩ := aside_setMux (by simp) ht
    exact ⟨{ h1 with }, h2⟩
  | fini =>
    obtain ⟨rfl, -⟩ := Prod.mk.inj (Option.some.inj h)
    exact ⟨{ Aside.refl s with }, rfl⟩
  | deleteHandler =>
    obtain ⟨rfl, -⟩ := Prod.mk.inj (Option.some.inj h)
    exact ⟨{ Aside.refl s with }, rfl⟩
  | _ =>
    obtain ⟨t, ht, h⟩ := Option.map_eq_some_iff.1 h
    obtain ⟨rfl, -⟩ := Prod.mk.inj h
    exact aside_setMux (by simp) ht

/-! ### Every step -/

theorem Inv.mux_of (h : Inv s) (hmux : s'.mux = s.mux ∨ ∃ a, a ≠ .recvDone ∧ s.mux.step a = some s'.mux) :
    s'.mux.Inv := by
  rcases hmux with hm | ⟨a, -, hm⟩
  · rw [hm]
    exact h.mux
  · exact h.mux.step hm

/-- The mux thread stays in the `OnRecvReady` that ends a session. -/
theorem Inv.ending_of (h : Inv s) (hmux : s'.mux = s.mux ∨ ∃ a, a ≠ .recvDone ∧ s.mux.step a = some s'.mux)
    (hacc : ∀ x ∈ s.accepted, x ∈ s'.accepted) (hend : ∀ x, s'.endPc.on = some x → s.endPc.on = some x) :
    ∀ x, s'.endPc.on = some x → x ∈ s'.accepted ∧ ∃ rest fds, s'.mux.pc = .recving x rest fds := by
  intro x hx
  obtain ⟨h1, rest, fds, h2⟩ := h.ending x (hend x hx)
  refine ⟨hacc x h1, rest, fds, ?_⟩
  rcases hmux with hm | ⟨a, ha, hm⟩
  · rw [hm, h2]
  · rw [MuxState.recving_stays hm h2 ha, h2]

theorem Inv.heard_of (h : Inv s) (hn : s'.notifying = s.notifying)
    (ho : ∀ t, s.notifying t ≠ none → ∀ x ∈ s.observerList t, x ∈ s'.observerList t) :
    ∀ t l, s'.notifying t = some l → ∀ x ∈ l, x ∈ s'.observerList t := by
  intro t l ht x hx
  rw [hn] at ht
  exact ho t (by simp [ht]) x (h.heard t l ht x hx)

omit [DecidableEq Inst] in
theorem Wake.congr (h : Wake s) (hl : ∀ x ∈ s'.clientList, s.bSessionEnd x = true → x ∈ s.clientList)
    (hb : s'.bSessionEnd = s.bSessionEnd) (he : s.hEndEvent ≤ s'.hEndEvent)
    (hc : s.cleanup.looking = true → s'.cleanup.looking = true) (hend : s'.endPc = s.endPc) : Wake s' := by
  intro x hx hx'
  rw [hb] at hx'
  rw [hend]
  exact (h x (hl x hx hx') hx').imp (fun h0 => h0.trans_le he) (Or.imp_left hc)

omit [DecidableEq Inst] in
theorem Joined.congr (h : Joined s) (ha : s'.accept = s.accept) (hc : s.cleanup = .left → s'.cleanup = .left)
    (hl : s.accept = .left → s.clientList = [] → s'.clientList = []) (hu : s'.unload = s.unload) : Joined s' := by
  unfold Joined at h ⊢
  rw [hu, ha]
  split at h
  · trivial
  · trivial
  · exact h
  · exact h
  · exact ⟨h.1, hc h.2⟩
  · exact ⟨h.1, hc h.2⟩
  · exact ⟨h.1, hc h.2.1, hl h.1 h.2.2⟩

omit [DecidableEq Inst] in
/-- While the accept thread runs, `Unload` waits for it. -/
theorem Joined.accepting (h : Joined s) (ha : s.accept ≠ .left) (hu : s'.unload = s.unload) : Joined s' := by
  unfold Joined at h ⊢
  rw [hu]
  split at h
  · trivial
  · trivial
  · exact absurd h ha
  · exact absurd h ha
  · exact absurd h.1 ha
  · exact absurd h.1 ha
  · exact absurd h.1 ha

/-- **A step of `CreateClientRec`.** -/
theorem Inv.create (h : Inv s) (hs : step s .create = some s') : Inv s' := by
  simp only [CommonServer.step] at hs
  split at hs
  · rename_i x pc hpc
    obtain ⟨⟨t, pc'⟩, ht, rfl⟩ := Option.map_eq_some_iff.1 hs
    obtain ⟨ha, hl⟩ := aside_createClientRec ht
    have hcre : ∀ y, (s.view y).create = if x = y then some pc else none := fun y => by simp [view, hpc, AcceptPc.on]
    have hst : ∀ st, Fits (s.view x) st → st = .creating pc := fun st hf => hf.of_create (by rw [hcre, if_pos rfl])
    have hon : ∀ y, (pc'.elim .waiting (AcceptPc.creating x)).on y = if x = y then pc' else none := by
      intro y
      cases pc' <;> simp [AcceptPc.on]
    have hv : ∀ y, { t with accept := pc'.elim .waiting (AcceptPc.creating x) }.view y =
        { t.view y with create := if x = y then pc' else none } := fun y => by rw [← hon y]; rfl
    obtain ⟨st₀, hst₀⟩ := h.clients x
    obtain rfl := hst st₀ hst₀
    obtain ⟨h1, h2⟩ := fits_createClientRec hst₀ ht
    refine ⟨h.mux_of ha.mux, views_of x h.clients (fun y hy => ?_) (fun _ _ => ⟨pc'.elim .listed .creating, ?_⟩),
      h.ending_of ha.mux (by simp [ha.accepted]) (by simp [ha.endPc]), h.heard_of ha.notifying ha.observerList,
      h.wake.congr (fun y hy he => ?_) ha.bSessionEnd ha.hEndEvent.ge (by rw [← ha.cleanup]; exact id) ha.endPc,
      h.joined.accepting (by simp [hpc]) ha.unload⟩
    · have hc := hcre y
      rw [if_neg (Ne.symm hy)] at hc
      rw [hv, h1 y hy, if_neg (Ne.symm hy), ← hc]
    · rw [hv, if_pos rfl]
      exact h2
    · rcases hl y hy with hy | ⟨rfl, rfl⟩
      · exact hy
      · exact absurd (hst₀.served he) (by simp [Stage.served])
  · cases hs

/-- **A step of `FreeClientRec`** in the cleanup thread. -/
theorem Inv.cleanupFree (h : Inv s) (hs : step s .cleanupFree = some s') : Inv s' := by
  simp only [CommonServer.step] at hs
  split at hs
  · rename_i x pc endList hpc
    obtain ⟨⟨t, pc'⟩, ht, rfl⟩ := Option.map_eq_some_iff.1 hs
    obtain ⟨ha, hl⟩ := aside_freeClientRec ht
    obtain ⟨c, hc⟩ : ∃ c, c = pc'.elim (CleanupPc.looping endList) (CleanupPc.freeing x · endList) := ⟨_, rfl⟩
    have hon : c.endList = endList ∧ c.looking = false ∧ ∀ y, c.on y = if x = y then pc' else none := by
      cases pc' <;> subst hc <;> exact ⟨rfl, rfl, fun y => by simp [CleanupPc.on]⟩
    rw [← hc]
    obtain ⟨st₀, hst₀⟩ := h.clients x
    obtain rfl := hst₀.of_free false pc (by simp [view, hpc, CleanupPc.on])
    obtain ⟨h1, h2⟩ := fits_freeClientRec hst₀ ht
    have hend : t.cleanup.endList = endList := by rw [ha.cleanup, hpc]; rfl
    have hv : ∀ y, { t with cleanup := c }.view y =
        (t.view y).withFree fun b => if b then s.unload.on y else if x = y then pc' else none := by
      intro y
      simp [view, ClientView.withFree, hon, hend, ha.unload]
    refine ⟨h.mux_of ha.mux, views_of x h.clients (fun y hy => ?_) (fun _ _ => ⟨pc'.elim .gone (.freeing false), ?_⟩),
      h.ending_of ha.mux (by simp [ha.accepted]) (by simp [ha.endPc]), h.heard_of ha.notifying ha.observerList,
      h.wake.congr (fun y hy _ => hl ▸ hy) ha.bSessionEnd ha.hEndEvent.ge (by simp [hpc, CleanupPc.looking]) ha.endPc,
      h.joined.congr ha.accept (by simp [hpc]) (by simp [hl]) ha.unload⟩
    · rw [hv, h1 y hy, if_neg (Ne.symm hy)]
      simp [view, ClientView.withFree, hpc, CleanupPc.on, Ne.symm hy]
    · rw [hv, if_pos rfl]
      convert h2 using 3 with b
      cases b with
      | false => rfl
      | true => exact hst₀.free true
  · cases hs

/-- **A step of `FreeClientRec`** in `Unload`. -/
theorem Inv.unloadFree (h : Inv s) (hs : step s .unloadFree = some s') : Inv s' := by
  simp only [CommonServer.step] at hs
  split at hs
  · rename_i x pc hpc
    obtain ⟨⟨t, pc'⟩, ht, rfl⟩ := Option.map_eq_some_iff.1 hs
    obtain ⟨ha, hl⟩ := aside_freeClientRec ht
    obtain ⟨c, hc⟩ : ∃ c, c = pc'.elim UnloadPc.looping (UnloadPc.freeing x) := ⟨_, rfl⟩
    have hon : ∀ y, c.on y = if x = y then pc' else none := by
      cases pc' <;> subst hc <;> exact fun y => by simp [UnloadPc.on]
    rw [← hc]
    obtain ⟨st₀, hst₀⟩ := h.clients x
    obtain rfl := hst₀.of_free true pc (by simp [view, hpc, UnloadPc.on])
    obtain ⟨h1, h2⟩ := fits_freeClientRec hst₀ ht
    have hv : ∀ y, { t with unload := c }.view y =
        (t.view y).withFree fun b => if b then if x = y then pc' else none else s.cleanup.on y := by
      intro y
      simp [view, ClientView.withFree, hon, ha.cleanup]
    refine ⟨h.mux_of ha.mux, views_of x h.clients (fun y hy => ?_) (fun _ _ => ⟨pc'.elim .gone (.freeing true), ?_⟩),
      h.ending_of ha.mux (by simp [ha.accepted]) (by simp [ha.endPc]), h.heard_of ha.notifying ha.observerList,
      h.wake.congr (fun y hy _ => hl ▸ hy) ha.bSessionEnd ha.hEndEvent.ge (by simp [ha.cleanup]) ha.endPc, ?_⟩
    · rw [hv, h1 y hy, if_neg (Ne.symm hy)]
      simp [view, ClientView.withFree, hpc, UnloadPc.on, Ne.symm hy]
    · rw [hv, if_pos rfl]
      convert h2 using 3 with b
      cases b with
      | false => exact hst₀.free false
      | true => rfl
    · have hj := h.joined
      unfold Joined at hj
      rw [hpc] at hj
      cases pc' <;> subst hc <;> exact ⟨ha.accept.trans hj.1, ha.cleanup.trans hj.2⟩
  · cases hs

/-- The next `OnRecvReady`. -/
theorem Fits.recvReady {v : ClientView} {st : Stage} (hf : Fits v st)
    (hst : st = .listed ∨ st = .ended ∨ ∃ b, st = .freeing b .unregister) :
    Fits { v with calls := v.calls ++ [.onRecvReady] } st := by
  have hnext : ∀ n, ∃ n', st.calls n' = st.calls n ++ [.onRecvReady] := by
    intro n
    refine ⟨n + 1, ?_⟩
    rcases hst with rfl | rfl | ⟨b, rfl⟩ <;> simp [Stage.calls, begunCalls, List.replicate_succ']
  obtain ⟨h1, h2⟩ := hf.call .onRecvReady st (by decide) hnext
  exact { hf with calls := h1, late := h2 }

/-- **A step of the mux thread, or of another user of `TransSockInst`.** -/
theorem Inv.muxStep (h : Inv s) {a : MuxStep Inst} (hs : step s (.mux a) = some s') : Inv s' := by
  simp only [CommonServer.step] at hs
  split at hs
  · rename_i hok
    obtain ⟨t, ht, rfl⟩ := Option.map_eq_some_iff.1 hs
    have hv : ∀ y, t.view y = s.view y := by
      refine fun y => view_setMux ht fun x p p' hm => ?_
      cases a <;> cases hm <;> simpa [muxAllowed] using hok
    obtain ⟨mux, hmux, rfl⟩ := Option.map_eq_some_iff.1 ht
    have hinv := h.mux.step hmux
    have hend : ∀ x, s.endPc.on = some x → x ∈ s.accepted ∧ ∃ rest fds, mux.pc = .recving x rest fds := by
      intro x hx
      have hne : a ≠ .recvDone := by
        rintro rfl
        have hnone : s.endPc = .none := by simpa [muxAllowed] using hok
        rw [hnone] at hx
        cases hx
      obtain ⟨h1, rest, fds, h2⟩ := h.ending x hx
      exact ⟨h1, rest, fds, (MuxState.recving_stays hmux h2 hne).trans h2⟩
    cases hr : s.recvBy a with
    | none => exact { h with mux := hinv, clients := fun y => by rw [hv]; exact h.clients y, ending := hend }
    | some x =>
      refine { h with
        mux := hinv
        clients := views_of x h.clients (fun y hy => ?_) (fun st hf => ⟨st, ?_⟩)
        ending := hend }
      · simp [hv, hy]
      · rw [view_log, if_pos rfl, hv]
        refine Fits.recvReady hf ?_
        cases a with
        | recvReady =>
          simp only [recvBy] at hr
          split at hr
          · rename_i y rest fds hpc
            split at hr
            · rename_i hx
              obtain rfl := Option.some.inj hr
              exact Fits.registered hf hx.2 (h.mux.listed.rest y (by rw [hpc]; exact List.mem_cons_self))
            · cases hr
          · cases hr
        | _ => cases hr
  · cases hs

/-- **A connection comes in.** -/
theorem Inv.accept (h : Inv s) {x : Inst} {t : SOCKET} (hs : step s (.accept x t) = some s') : Inv s' := by
  simp only [CommonServer.step] at hs
  split at hs
  · rename_i hacc
    obtain ⟨r, hr, rfl⟩ := Option.map_eq_some_iff.1 hs
    obtain ⟨mux, hmux, rfl⟩ := Option.map_eq_some_iff.1 hr
    obtain ⟨h1, h2⟩ := MuxState.phase_moves hmux rfl
    obtain ⟨st₀, hst₀⟩ := h.clients x
    obtain rfl := hst₀.of_foreign (by simp [view, h1])
    have hm : ∃ a, a ≠ .recvDone ∧ s.mux.step a = some mux := ⟨_, by simp, hmux⟩
    refine ⟨h.mux_of (.inr hm), views_of x h.clients (fun y hy => ?_) (fun _ _ => ⟨.creating .pushBack, ?_⟩),
      h.ending_of (.inr hm) (fun y hy => List.mem_append_left _ hy) (fun y => id), h.heard, h.wake,
      h.joined.accepting (by simp [hacc]) rfl⟩
    · simp [view, AcceptPc.on, hacc, h2, hy, Ne.symm hy]
    · exact { hst₀ with
        accepted := by simp [view, Stage.accepted]
        phase := by simp [view, h2, Stage.phase]
        create := by simp [view, AcceptPc.on, Stage.create] }
  · cases hs

theorem count_filter_ite (p : Inst → Bool) (l : List Inst) (x : Inst) :
    (l.filter p).count x = if p x then l.count x else 0 := by
  split
  · exact List.count_filter ‹_›
  · refine List.count_eq_zero.2 fun hm => ?_
    exact absurd (List.mem_filter.1 hm).2 ‹_›

/-- **The cleanup thread takes the clients whose session ended.** -/
theorem Inv.scan (h : Inv s) (hs : step s .scan = some s') : Inv s' := by
  obtain ⟨hpc, rfl⟩ := guard_some hs
  refine { h with
    clients := fun x => ?_
    wake := fun x hx hb => ?_
    joined := h.joined.congr rfl (by simp [hpc]) (by simp +contextual) rfl }
  · obtain ⟨st, hf⟩ := h.clients x
    have hend : st.inEndList = 0 := by
      rw [← hf.ended]
      simp [view, hpc, CleanupPc.endList]
    have hfree : st.free false = none := by
      rw [← hf.free]
      simp [view, hpc, CleanupPc.on]
    have hfree' : ∀ b, (if b then s.unload.on x else none) = st.free b := by
      intro b
      cases b with
      | false => exact hfree.symm
      | true => exact hf.free true
    have hl : s.clientList.count x = st.inList := hf.listed
    have hc := count_filter_ite (fun x => !s.bSessionEnd x) s.clientList x
    have he := count_filter_ite s.bSessionEnd s.clientList x
    rw [hl] at hc he
    by_cases hb : s.bSessionEnd x = true
    · rw [if_neg (by simp [hb])] at hc
      rw [if_pos hb] at he
      have hsv := hf.served hb
      cases st with
      | foreign => cases hsv
      | creating pc => cases hsv
      | listed =>
        exact ⟨.ended, hf.accepted, hf.phase, hf.create, hc, he, hfree', hf.observed, hf.pEndEvent, fun _ => rfl,
          hf.frees, hf.calls, hf.late⟩
      | ended => cases hend
      | freeing b pc =>
        exact ⟨.freeing b pc, hf.accepted, hf.phase, hf.create, hc, he, hfree', hf.observed, hf.pEndEvent, fun _ => rfl,
          hf.frees, hf.calls, hf.late⟩
      | gone =>
        exact ⟨.gone, hf.accepted, hf.phase, hf.create, hc, he, hfree', hf.observed, hf.pEndEvent, fun _ => rfl,
          hf.frees, hf.calls, hf.late⟩
    · rw [if_pos (by simp [hb])] at hc
      rw [if_neg hb] at he
      exact ⟨st, hf.accepted, hf.phase, hf.create, hc, he.trans hend.symm, hfree', hf.observed, hf.pEndEvent, hf.served,
        hf.frees, hf.calls, hf.late⟩
  · have := (List.mem_filter.1 hx).2
    simp [show s.bSessionEnd x = true from hb] at this

/-- The cleanup thread's loop over `EndList`. -/
theorem Inv.cleanupPop (h : Inv s) (hs : step s .cleanupPop = some s') : Inv s' := by
  simp only [CommonServer.step] at hs
  split at hs
  · rename_i hpc
    cases hs
    refine { h with
      clients := fun x => ?_
      wake := h.wake.congr (fun _ hx _ => hx) rfl le_rfl (by simp [hpc, CleanupPc.looking]) rfl
      joined := h.joined.congr rfl (by simp [hpc]) (fun _ => id) rfl }
    have hv : { s with cleanup := .waiting }.view x = s.view x := by simp [view, hpc, CleanupPc.on, CleanupPc.endList]
    rw [hv]
    exact h.clients x
  · rename_i x endList hpc
    cases hs
    have hv : ∀ y, { s.countFree x with cleanup := .freeing x .unregister endList }.view y =
        { ((s.countFree x).view y).withFree fun b =>
            if b then s.unload.on y else if x = y then some .unregister else none with
          ended := endList.count y } := fun y => rfl
    refine { h with
      clients := views_of x h.clients (fun y hy => ?_) (fun st hf => ⟨.freeing false .unregister, ?_⟩)
      wake := h.wake.congr (fun _ hx _ => hx) rfl le_rfl (by simp [hpc, CleanupPc.looking]) rfl
      joined := h.joined.congr rfl (by simp [hpc]) (fun _ => id) rfl }
    · rw [hv, view_countFree, if_neg hy]
      simp [view, ClientView.withFree, hpc, CleanupPc.on, CleanupPc.endList, Ne.symm hy]
    · have hcount : (s.view x).ended = endList.count x + 1 := by simp [view, hpc, CleanupPc.endList]
      obtain rfl := hf.of_ended (by omega)
      have hlast : endList.count x = 0 := by
        have := hf.ended
        simp only [Stage.inEndList] at this
        omega
      have hfree : ∀ b, (if b then s.unload.on x else if x = x then some FreePc.unregister else none) =
          (Stage.freeing false .unregister).free b := by
        intro b
        cases b with
        | false => simp [Stage.free]
        | true => exact hf.free true
      rw [hv, view_countFree, if_pos rfl]
      exact { hf with ended := hlast, free := hfree, served := fun _ => rfl, frees := congrArg (· + 1) hf.frees }
  · cases hs

/-- `Unload`'s loop over `_ClientList`. -/
theorem Inv.unloadPop (h : Inv s) (hs : step s .unloadPop = some s') : Inv s' := by
  simp only [CommonServer.step] at hs
  split at hs
  · rename_i hu
    have hj : s.accept = .left ∧ s.cleanup = .left := by
      have hj := h.joined
      unfold Joined at hj
      rwa [hu] at hj
    split at hs
    · rename_i hl
      cases hs
      refine { h with
        clients := fun x => ?_
        wake := h.wake.congr (fun _ hx _ => hx) rfl le_rfl id rfl
        joined := ⟨hj.1, hj.2, hl⟩ }
      have hv : { s with unload := .returned }.view x = s.view x := by simp [view, hu, UnloadPc.on]
      rw [hv]
      exact h.clients x
    · rename_i x xs hl
      cases hs
      have hv : ∀ y, { s.countFree x with clientList := xs, unload := .freeing x .unregister }.view y =
          { ((s.countFree x).view y).withFree fun b =>
              if b then if x = y then some .unregister else none else s.cleanup.on y with
            listed := xs.count y } := fun y => rfl
      refine { h with
        clients := views_of x h.clients (fun y hy => ?_) (fun st hf => ⟨.freeing true .unregister, ?_⟩)
        wake := h.wake.congr (fun y hy _ => ?_) rfl le_rfl id rfl
        joined := hj }
      · rw [hv, view_countFree, if_neg hy]
        simp [view, ClientView.withFree, hu, UnloadPc.on, hl, Ne.symm hy]
      · have hcount : (s.view x).listed = xs.count x + 1 := by simp [view, hl]
        obtain rfl := hf.of_listed (by omega) (by simp [view, hj.1, AcceptPc.on])
        have hlast : xs.count x = 0 := by
          have := hf.listed
          simp only [Stage.inList] at this
          omega
        have hfree : ∀ b, (if b then if x = x then some FreePc.unregister else none else s.cleanup.on x) =
            (Stage.freeing true .unregister).free b := by
          intro b
          cases b with
          | false => exact hf.free false
          | true => simp [Stage.free]
        rw [hv, view_countFree, if_pos rfl]
        exact { hf with listed := hlast, free := hfree, served := fun _ => rfl, frees := congrArg (· + 1) hf.frees }
      · rw [hl]
        exact List.mem_cons_of_mem _ hy
  · cases hs

/-- **`EndSession`**, in the mux thread's `OnRecvReady`: the client's transport is registered, so its `_pEndEvent` is
there. -/
theorem Inv.endSession (h : Inv s) (hs : step s .endSession = some s') : Inv s' := by
  simp only [CommonServer.step] at hs
  split at hs
  · rename_i x rest fds hpc
    obtain ⟨⟨hnone, hx⟩, rfl⟩ := guard_some hs
    refine { h with clients := views_of x h.clients (fun y hy => ?_) (fun st hf => ⟨st, ?_⟩), ending := ?_, wake := ?_ }
    · simp [view, Function.update_of_ne hy]
    · have hst := Fits.registered hf hx (h.mux.listed.rest x (by rw [hpc]; exact List.mem_cons_self))
      refine { hf with served := fun _ => ?_ }
      rcases hst with rfl | rfl | ⟨b, rfl⟩ <;> rfl
    · intro y hy
      obtain rfl := Option.some.inj hy
      exact ⟨hx, rest, fds, hpc⟩
    · intro y hy hb
      by_cases he : y = x
      · subst he
        exact .inr (.inr rfl)
      · simp only [Function.update_of_ne he] at hb
        rcases h.wake y hy hb with h0 | h0 | h0
        · exact .inl h0
        · exact .inr (.inl h0)
        · rw [hnone] at h0
          cases h0
  · cases hs

theorem Inv.endPost (h : Inv s) (hs : step s .endPost = some s') : Inv s' := by
  simp only [CommonServer.step] at hs
  split at hs
  · rename_i x hpc
    cases hs
    have hend : s.pEndEvent x = true := by
      obtain ⟨hx, rest, fds, hmux⟩ := h.ending x (by rw [hpc]; rfl)
      obtain ⟨st, hf⟩ := h.clients x
      have hst := Fits.registered hf hx (h.mux.listed.rest x (by rw [hmux]; exact List.mem_cons_self))
      have := hf.pEndEvent
      rcases hst with rfl | rfl | ⟨b, rfl⟩ <;> exact this
    refine { h with ending := nofun, wake := fun y hy hb => .inl ?_ }
    rw [if_pos hend]
    exact Nat.succ_pos _
  · cases hs

/-- **A table tells its observers**, none of whom was finished. -/
theorem Inv.notify (h : Inv s) {t : Table} (hs : step s (.notify t) = some s') : Inv s' := by
  simp only [CommonServer.step] at hs
  have hheard : ∀ (l : List Inst), (∀ x ∈ l, x ∈ s.observerList t) → ∀ t' l',
      Function.update s.notifying t (some l) t' = some l' → ∀ x ∈ l', x ∈ s.observerList t' := by
    intro l hl t' l' ht
    by_cases he : t' = t
    · subst he
      rw [Function.update_self] at ht
      exact Option.some.inj ht ▸ hl
    · rw [Function.update_of_ne he] at ht
      exact h.heard t' l' ht
  split at hs
  · cases hs
    exact { h with heard := hheard _ fun _ => id }
  · cases hs
    refine { h with heard := fun t' l' ht => ?_ }
    by_cases he : t' = t
    · subst he
      simp at ht
    · exact h.heard t' l' (by simpa [he] using ht)
  · rename_i x xs hn
    cases hs
    have hall := h.heard t _ hn
    refine { h with
      clients := views_of x h.clients (fun y hy => ?_) (fun st hf => ⟨st, ?_⟩)
      heard := hheard xs fun y hy => hall y (List.mem_cons_of_mem _ hy) }
    · rw [view_notifying, view_log, if_neg hy]
    · have hob : 0 < (s.view x).observed t := List.count_pos_iff.2 (hall x List.mem_cons_self)
      have hno := hf.not_fini hob
      rw [view_notifying, view_log, if_pos rfl]
      refine { hf with calls := ?_, late := noLateNotify_of_not_fini ?_ }
      · obtain ⟨n, hn⟩ := hf.calls
        refine ⟨n, ?_⟩
        rw [← hn, List.filter_append]
        simp [view]
      · simpa [view] using hno

theorem Inv.step {a : ServerStep Inst} (h : Inv s) (hs : step s a = some s') : Inv s' := by
  cases a with
  | mux a => exact h.muxStep hs
  | accept x t => exact h.accept hs
  | create => exact h.create hs
  | endSession => exact h.endSession hs
  | endPost => exact h.endPost hs
  | scan => exact h.scan hs
  | cleanupPop => exact h.cleanupPop hs
  | cleanupFree => exact h.cleanupFree hs
  | unloadPop => exact h.unloadPop hs
  | unloadFree => exact h.unloadFree hs
  | notify t => exact h.notify hs
  | acceptLeaves =>
    obtain ⟨⟨hpc, -⟩, rfl⟩ := guard_some hs
    refine { h with clients := fun x => ?_, joined := h.joined.accepting (by simp [hpc]) rfl }
    have hv : { s with accept := .left }.view x = s.view x := by simp [view, hpc, AcceptPc.on]
    rw [hv]
    exact h.clients x
  | endSuspend =>
    simp only [CommonServer.step] at hs
    split at hs
    · rename_i x hpc
      obtain ⟨t, ht, rfl⟩ := Option.map_eq_some_iff.1 hs
      obtain ⟨ha, hl⟩ := aside_setMux (by simp) ht
      have hv : ∀ y, t.view y = s.view y := fun y => view_setMux ht nofun
      refine ⟨h.mux_of ha.mux, fun y => ?_, h.ending_of ha.mux (by simp [ha.accepted]) (by simp [hpc, EndPc.on]),
        h.heard_of ha.notifying ha.observerList, ?_, h.joined.congr ha.accept (by simp [ha.cleanup])
          (by simp [hl]) ha.unload⟩
      · rw [view_endPc, hv]
        exact h.clients y
      · have hw := h.wake
        unfold Wake at hw ⊢
        simpa [hl, ha.bSessionEnd, ha.hEndEvent, ha.cleanup, hpc, EndPc.on] using hw
    · cases hs
  | cleanupWait =>
    obtain ⟨⟨hpc, -⟩, rfl⟩ := guard_some hs
    refine { h with
      clients := fun x => ?_
      wake := fun _ _ _ => .inr (.inl rfl)
      joined := h.joined.congr rfl (by simp [hpc]) (fun _ => id) rfl }
    have hv : { s with cleanup := .testing, hEndEvent := s.hEndEvent - 1 }.view x = s.view x := by
      simp [view, hpc, CleanupPc.on, CleanupPc.endList]
    rw [hv]
    exact h.clients x
  | cleanupTest =>
    obtain ⟨hpc, rfl⟩ := guard_some hs
    obtain ⟨c, hc⟩ : ∃ c : CleanupPc Inst, c = if s.bQuit = true then .left else .scanning := ⟨_, rfl⟩
    have hl : c.looking = true ∧ c.endList = [] ∧ ∀ x, c.on x = none := by
      split at hc <;> subst hc <;> exact ⟨rfl, rfl, fun _ => rfl⟩
    rw [← hc]
    refine { h with
      clients := fun x => ?_
      wake := fun _ _ _ => .inr (.inl hl.1)
      joined := h.joined.congr rfl (by simp [hpc]) (fun _ => id) rfl }
    have hv : { s with cleanup := c }.view x = s.view x := by
      have h1 : s.cleanup.endList = [] := by rw [hpc]; rfl
      have h2 : s.cleanup.on x = none := by rw [hpc]; rfl
      simp [view, hl, h1, h2]
    rw [hv]
    exact h.clients x
  | unload =>
    obtain ⟨hu, rfl⟩ := guard_some hs
    refine { h with clients := fun x => ?_, joined := trivial }
    have hv : { s with bQuit := true, unload := .joinAccept }.view x = s.view x := by simp [view, hu, UnloadPc.on]
    rw [hv]
    exact h.clients x
  | joinedAccept =>
    obtain ⟨⟨hu, ha⟩, rfl⟩ := guard_some hs
    refine { h with clients := fun x => ?_, joined := ha }
    have hv : { s with unload := .posting }.view x = s.view x := by simp [view, hu, UnloadPc.on]
    rw [hv]
    exact h.clients x
  | unloadPost =>
    obtain ⟨hu, rfl⟩ := guard_some hs
    have hj := h.joined
    unfold Joined at hj
    rw [hu] at hj
    refine { h with
      clients := fun x => ?_
      wake := h.wake.congr (fun _ hx _ => hx) rfl (Nat.le_succ _) id rfl
      joined := hj }
    have hv : { s with hEndEvent := s.hEndEvent + 1, unload := .joinCleanup }.view x = s.view x := by
      simp [view, hu, UnloadPc.on]
    rw [hv]
    exact h.clients x
  | joinedCleanup =>
    obtain ⟨⟨hu, hc⟩, rfl⟩ := guard_some hs
    have hj := h.joined
    unfold Joined at hj
    rw [hu] at hj
    refine { h with clients := fun x => ?_, joined := ⟨hj, hc⟩ }
    have hv : { s with unload := .looping }.view x = s.view x := by simp [view, hu, UnloadPc.on]
    rw [hv]
    exact h.clients x

theorem inv_start {mux : MuxState Inst} (h : (MuxState.machine Inst).Reach mux) : Inv (start mux) where
  mux := MuxState.inv_reach h
  clients x := ⟨.foreign, by
    refine ⟨rfl, rfl, rfl, rfl, rfl, fun b => ?_, fun _ => rfl, rfl, nofun, rfl, ⟨0, rfl⟩,
      noLateNotify_of_not_fini nofun⟩
    cases b <;> rfl⟩
  ending := nofun
  heard := nofun
  wake := nofun
  joined := trivial

theorem inv_reach (h : (machine Inst).Reach s) : Inv s :=
  Machine.Reach.invariant (by rintro s ⟨mux, hmux, rfl⟩; exact inv_start hmux) (fun _ _ _ hi hs => hi.step hs) h

/-! ### Every run -/

/-- **A client that is accepted when `Unload` returned is gone.** -/
theorem Inv.all_gone (h : Inv s) (hu : s.unload = .returned) (hx : x ∈ s.accepted) : Fits (s.view x) .gone := by
  have hj := h.joined
  unfold Joined at hj
  rw [hu] at hj
  obtain ⟨hacc, hcl, hl⟩ := hj
  obtain ⟨st, hf⟩ := h.clients x
  cases st with
  | foreign =>
    have := hf.accepted
    simp [view, hx, Stage.accepted] at this
  | creating pc =>
    have := hf.create
    simp [view, hacc, AcceptPc.on, Stage.create] at this
  | listed =>
    have := hf.listed
    simp [view, hl, Stage.inList] at this
  | ended =>
    have := hf.ended
    simp [view, hcl, CleanupPc.endList, Stage.inEndList] at this
  | freeing b pc =>
    have := hf.free b
    simp [view, hcl, hu, CleanupPc.on, UnloadPc.on, Stage.free] at this
  | gone => exact hf

/-- **The life of a client**: `Init`, `OnStarted`, any number of `OnRecvReady`, `OnStopped`, `Fini` and `delete`, in
that order, with one `FreeClientRec` before `OnStopped`, and no `Notify` after `Fini`; the cleanup thread does not block
on a session that ended; and when `Unload` returned every client's life is over. -/
theorem client_life (h : (machine Inst).Reach s) :
    (∀ x ∈ s.accepted, (∃ n, (s.calls x).filter (· ≠ .notify) <+: lifeCalls n) ∧ NoLateNotify (s.calls x) ∧
      s.frees x ≤ 1 ∧ (.onStopped ∈ s.calls x → s.frees x = 1)) ∧
    (s.cleanup = .waiting → s.hEndEvent = 0 → s.endPc = .none → ∀ x ∈ s.clientList, s.bSessionEnd x = false) ∧
    (s.unload = .returned → s.clientList = [] ∧ ∀ x ∈ s.accepted,
      (∃ n, (s.calls x).filter (· ≠ .notify) = lifeCalls n) ∧ s.frees x = 1 ∧ x ∉ s.mux.muxList) := by
  have hi := inv_reach h
  refine ⟨fun x _ => ?_, fun hc he hp x hx => ?_, fun hu => ⟨?_, fun x hx => ?_⟩⟩
  · obtain ⟨st, hf⟩ := hi.clients x
    obtain ⟨n, hn⟩ := hf.calls
    have hfr : s.frees x = st.frees := hf.frees
    refine ⟨⟨n, ?_⟩, hf.late, ?_, fun hm => ?_⟩
    · rw [show (s.calls x).filter (· ≠ .notify) = st.calls n from hn]
      exact st.calls_initial n
    · rw [hfr]
      cases st <;> simp [Stage.frees]
    · have hm' : .onStopped ∈ st.calls n := by
        rw [← hn]
        exact List.mem_filter.2 ⟨hm, by decide⟩
      rw [hfr]
      cases st with
      | creating pc => cases pc <;> simp [Stage.calls] at hm'
      | _ => simp_all [Stage.calls, Stage.frees, begunCalls]
  · by_contra hb
    rcases hi.wake x hx (by simpa using hb) with h0 | h0 | h0
    · omega
    · simp [hc, CleanupPc.looking] at h0
    · simp [hp, EndPc.on] at h0
  · have hj := hi.joined
    unfold Joined at hj
    rw [hu] at hj
    exact hj.2.2
  · have hf := hi.all_gone hu hx
    refine ⟨hf.calls, hf.frees, fun hm => ?_⟩
    have hp := hf.phase
    simp [view, hx, (hi.mux.listed.list x).1 hm, Stage.phase] at hp

/-- One client's session ends and it is freed by the cleanup thread; another is freed by `Unload`. -/
def unloadRun : List (ServerStep Nat) := List.flatten [
  [.mux (.openSocket 5), .mux (.openSocket 6), .accept 0 5], List.replicate 7 .create,
  [.mux .post, .accept 1 6], List.replicate 7 .create,
  [.mux .loopTest, .mux .cleaned, .mux .lock, .mux .fdSet, .mux .fdSet, .mux .built, .mux (.select [5] []),
    .mux .relock],
  List.replicate 4 (.notify .dev),
  [.mux .recvReady, .endSession, .endSuspend, .endPost, .mux .recvDone, .mux .recvReady, .mux .dispatched],
  [.cleanupWait, .cleanupTest, .scan, .cleanupPop], List.replicate 8 .cleanupFree, [.cleanupPop],
  [.unload, .acceptLeaves, .joinedAccept, .unloadPost, .cleanupWait, .cleanupTest, .joinedCleanup],
  [.unloadPop], List.replicate 8 .unloadFree, [.unloadPop]]

theorem client_life_unload : ∃ s, (machine Nat).run (start (MuxState.start fun _ => false)) unloadRun = some s ∧
    s.accepted = [0, 1] ∧ s.unload = .returned ∧ s.clientList = [] ∧
    ∀ x ∈ s.accepted, (∃ n, (s.calls x).filter (· ≠ .notify) = lifeCalls n) ∧ s.frees x = 1 ∧ x ∉ s.mux.muxList := by
  obtain ⟨s, hs, hc⟩ := Option.map_eq_some_iff.1
    (show ((machine Nat).run (start (MuxState.start fun _ => false)) unloadRun).map (fun s => (s.accepted, s.unload)) =
      some ([0, 1], .returned) by decide +kernel)
  obtain ⟨hacc, hu⟩ := Prod.mk.inj hc
  have h0 : (MuxState.machine Nat).Reach (MuxState.start fun _ => false) := .init ⟨_, rfl⟩
  have hr := (Machine.Reach.init (M := machine Nat) ⟨_, h0, rfl⟩).run hs
  obtain ⟨h1, h2⟩ := (client_life hr).2.2 hu
  exact ⟨s, hs, hacc, hu, h1, h2⟩

end CommonServer

end DevMgr
