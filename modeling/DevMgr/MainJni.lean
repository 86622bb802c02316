import DevMgr.GlobalDef
import DevMgr.Machine
import DevMgr.RingBuffer
/-!
# MainJni — the message queue between the client and the Java service

`main-jni.cpp`: `MyMsgClient::ProcessDbMsg` (one call at a time) pushes messages to the global `gMsgRing`, and
`WorkThreadProc` hands them to `OnEvent`.  `ghEvent` is posted only by a call that saw the ring empty before its push.
`nativeInit` starts the worker; `nativeConnect` loads the client, whose threads then call `ProcessDbMsg` until
`nativeQuit` has unloaded it; `nativeQuit` joins the worker first.  The ring is never emptied between the two.

`pushed` and `handed` are the messages pushed and those given to `OnEvent`; `failed` records a failed assertion.
-/
namespace DevMgr

open Machines

structure MsgItem where
  msgCode : DWORD
  szDevId : List BYTE
  deriving DecidableEq, Repr

/-- Where `WorkThreadProc` is: at a test of its loops, in `sem_wait`, or with a message to pop or to hand on. -/
inductive WorkerPc where
  | none
  | loopTest
  | waiting
  | ringTest
  | popping
  | calling (m : MsgItem)
  | left
  deriving DecidableEq, Repr

/-- Where the `ProcessDbMsg` call is, with its `bSignal`. -/
inductive ProducerPc where
  | idle
  | tested (bSignal : Bool) (m : MsgItem)
  | pushed (bSignal : Bool)
  deriving DecidableEq, Repr

/-- Where the service is: out of `nativeInit`, in it, or in `nativeQuit` after its store, its post and its join. -/
inductive Service where
  | out
  | live
  | quitSet
  | quitPosted
  | quitJoined
  deriving DecidableEq, Repr

structure MainJni where
  gMsgRing : RingBuffer MsgItem
  ghEvent : Nat
  gbQuit : Bool
  worker : WorkerPc
  producer : ProducerPc
  service : Service
  connected : Bool
  pushed : List MsgItem
  handed : List MsgItem
  failed : Bool

inductive JniStep where
  | nativeInit
  | nativeConnect
  | setQuit
  | postQuit
  | join
  | unload
  | testEmpty (msgCode : DWORD) (szDevId : List BYTE)
  | push
  | post
  | loopTest
  | wait
  | ringTest
  | pop
  | onEvent

namespace MainJni

/-- The first steps of `ProcessDbMsg` and the message it will push. -/
def testEmpty (s : MainJni) (msgCode : DWORD) (szDevId : List BYTE) : MainJni :=
  { s with producer := .tested s.gMsgRing.isEmpty ⟨msgCode, strncpy szDevId maxDevIdLen⟩ }

def push (ndebug : Bool) (s : MainJni) (bSignal : Bool) (m : MsgItem) : MainJni :=
  if s.gMsgRing.isFull then { s with producer := .pushed bSignal }
  else match s.gMsgRing.pushAtBack ndebug (some m) with
    | .error _ => { s with failed := true }
    | .ok b => { s with gMsgRing := b, producer := .pushed bSignal, pushed := s.pushed ++ [m] }

def post (s : MainJni) (bSignal : Bool) : MainJni :=
  { s with producer := .idle, ghEvent := if bSignal then s.ghEvent + 1 else s.ghEvent }

def pop (ndebug : Bool) (s : MainJni) : MainJni :=
  match s.gMsgRing.popAtFront ndebug with
  | .ok (b, some m) => { s with gMsgRing := b, worker := .calling m }
  | _ => { s with failed := true }

def step (ndebug : Bool) (s : MainJni) : JniStep → Option MainJni
  | .nativeInit => if s.service = .out then
      some { s with service := .live, connected := false, ghEvent := 0, gbQuit := false, worker := .loopTest } else none
  | .nativeConnect => if s.service = .live then some { s with connected := true } else none
  | .setQuit => if s.service = .live then some { s with service := .quitSet, gbQuit := true } else none
  | .postQuit => if s.service = .quitSet then some { s with service := .quitPosted, ghEvent := s.ghEvent + 1 } else none
  | .join => if s.service = .quitPosted ∧ s.worker = .left then
      some { s with service := .quitJoined, worker := .none } else none
  | .unload => if s.service = .quitJoined ∧ s.producer = .idle then
      some { s with service := .out, connected := false } else none
  | .testEmpty msgCode szDevId => if s.connected ∧ s.producer = .idle then some (s.testEmpty msgCode szDevId) else none
  | .push => match s.producer with
    | .tested bSignal m => some (s.push ndebug bSignal m)
    | _ => none
  | .post => match s.producer with
    | .pushed bSignal => some (s.post bSignal)
    | _ => none
  | .loopTest => if s.worker = .loopTest then
      some { s with worker := if s.gbQuit then .left else .waiting } else none
  | .wait => if s.worker = .waiting ∧ 0 < s.ghEvent then
      some { s with ghEvent := s.ghEvent - 1, worker := .ringTest } else none
  | .ringTest => if s.worker = .ringTest then
      some { s with worker := if s.gMsgRing.isEmpty then .loopTest else .popping } else none
  | .pop => if s.worker = .popping then some (s.pop ndebug) else none
  | .onEvent => match s.worker with
    | .calling m => some { s with handed := s.handed ++ [m], worker := .ringTest }
    | _ => none

/-- The process before any `nativeInit`. -/
def start (ndebug : Bool) (fresh : Nat → Option MsgItem) : MainJni :=
  { gMsgRing := .new ndebug 100 fresh, ghEvent := 0, gbQuit := false, worker := .none, producer := .idle
    service := .out
    connected := false, pushed := [], handed := [], failed := false }

def machine (ndebug : Bool) : Machine MainJni JniStep where
  init s := ∃ fresh, s = start ndebug fresh
  step := step ndebug

theorem init_start (ndebug : Bool) (fresh : Nat → Option MsgItem) : (machine ndebug).init (start ndebug fresh) :=
  ⟨fresh, rfl⟩

/-! ## What every run keeps -/

/-- The message the worker has popped and not handed on. -/
def inHand : WorkerPc → List MsgItem
  | .calling m => [m]
  | _ => []

/-- The ring holds `xs`, and what was pushed is what was handed on, what the worker has and `xs`, in that order. -/
structure Queued (ndebug : Bool) (s : MainJni) (xs : List MsgItem) : Prop where
  holds : s.gMsgRing.Holds ndebug xs
  size : s.gMsgRing.nSize = 101
  order : s.pushed = s.handed ++ inHand s.worker ++ xs
  popping : s.worker = .popping → xs ≠ []
  gone : s.service = .out ∨ s.service = .quitJoined → s.worker = .none
  fine : s.failed = false

variable {ndebug : Bool} {s s' : MainJni} {a : JniStep} {xs : List MsgItem}

theorem queued_start (fresh : Nat → Option MsgItem) : Queued ndebug (start ndebug fresh) [] where
  holds := RingBuffer.holds_new ndebug 100 fresh
  size := rfl
  order := rfl
  popping := by simp [start]
  gone := fun _ => rfl
  fine := rfl

theorem Queued.isEmpty (h : Queued ndebug s xs) : s.gMsgRing.isEmpty = true ↔ xs = [] := by
  rw [h.holds.isEmpty, List.isEmpty_iff]

/-- A push appends the message, unless the ring is full. -/
theorem Queued.push (h : Queued ndebug s xs) (bSignal : Bool) (m : MsgItem) :
    Queued ndebug (s.push ndebug bSignal m) (if s.gMsgRing.isFull then xs else xs ++ [m]) ∧
      (s.push ndebug bSignal m).producer = .pushed bSignal ∧ (s.push ndebug bSignal m).worker = s.worker ∧
      (s.push ndebug bSignal m).gbQuit = s.gbQuit ∧ (s.push ndebug bSignal m).ghEvent = s.ghEvent := by
  unfold MainJni.push
  by_cases hf : s.gMsgRing.isFull = true
  · rw [if_pos hf, if_pos hf]
    exact ⟨{ h with }, rfl, rfl, rfl, rfl⟩
  · rw [if_neg hf, if_neg hf]
    rw [h.holds.isFull, decide_eq_true_eq] at hf
    have hroom := h.holds.room
    obtain ⟨b, h1, h2, h3⟩ := h.holds.pushAtBack (show xs.length + 1 < s.gMsgRing.nSize by omega) m
    rw [h1]
    refine ⟨⟨h2, h3.trans h.size, ?_, fun _ => ?_, h.gone, h.fine⟩, rfl, rfl, rfl, rfl⟩
    · show s.pushed ++ [m] = s.handed ++ inHand s.worker ++ (xs ++ [m])
      rw [h.order, List.append_assoc _ xs]
    · exact List.append_ne_nil_of_right_ne_nil _ (List.cons_ne_nil m [])

theorem Queued.pop {m : MsgItem} (h : Queued ndebug s (m :: xs)) (hp : s.worker = .popping) :
    Queued ndebug (s.pop ndebug) xs ∧ (s.pop ndebug).worker = .calling m := by
  obtain ⟨b, h1, h2, h3⟩ := h.holds.popAtFront
  unfold MainJni.pop
  rw [h1]
  refine ⟨⟨h2, h3.trans h.size, ?_, by simp, fun hg => ?_, h.fine⟩, rfl⟩
  · show s.pushed = s.handed ++ [m] ++ xs
    rw [h.order, hp]
    simp [inHand]
  · have := h.gone hg
    rw [hp] at this
    cases this

/-- A worker that runs is not between services. -/
theorem Queued.busy (h : Queued ndebug s xs) {w : WorkerPc} (hw : s.worker ≠ .none) :
    s.service = .out ∨ s.service = .quitJoined → w = .none := fun hg => absurd (h.gone hg) hw

/-- **A step keeps the order of the messages**; only a push and a pop change the ring. -/
theorem Queued.step (h : Queued ndebug s xs) (hs : step ndebug s a = some s') :
    ∃ ys, Queued ndebug s' ys ∧ (ys = xs ∨ a = .push ∨ (a = .pop ∧ ∃ m, s'.worker = .calling m)) := by
  cases a with
  | nativeInit =>
    obtain ⟨hg, rfl⟩ := guard_some hs
    refine ⟨xs, { h with order := ?_, popping := by simp, gone := by simp }, .inl rfl⟩
    rw [h.order, h.gone (.inl hg)]
    rfl
  | nativeConnect =>
    obtain ⟨hg, rfl⟩ := guard_some hs
    exact ⟨xs, { h with }, .inl rfl⟩
  | setQuit =>
    obtain ⟨hg, rfl⟩ := guard_some hs
    exact ⟨xs, { h with gone := by simp }, .inl rfl⟩
  | postQuit =>
    obtain ⟨hg, rfl⟩ := guard_some hs
    exact ⟨xs, { h with gone := by simp }, .inl rfl⟩
  | join =>
    obtain ⟨hg, rfl⟩ := guard_some hs
    refine ⟨xs, { h with order := ?_, popping := by simp, gone := fun _ => rfl }, .inl rfl⟩
    rw [h.order, hg.2]
    rfl
  | unload =>
    obtain ⟨hg, rfl⟩ := guard_some hs
    exact ⟨xs, { h with gone := fun _ => h.gone (.inr hg.1) }, .inl rfl⟩
  | testEmpty msgCode szDevId =>
    obtain ⟨hg, rfl⟩ := guard_some hs
    exact ⟨xs, { h with }, .inl rfl⟩
  | push =>
    simp only [MainJni.step] at hs
    split at hs
    · cases hs
      exact ⟨_, (h.push _ _).1, .inr (.inl rfl)⟩
    · cases hs
  | post =>
    simp only [MainJni.step] at hs
    split at hs
    · cases hs
      exact ⟨xs, { h with }, .inl rfl⟩
    · cases hs
  | loopTest =>
    obtain ⟨hg, rfl⟩ := guard_some hs
    refine ⟨xs, { h with order := ?_, popping := ?_, gone := h.busy (by simp [hg]) }, .inl rfl⟩
    · rw [h.order, hg]
      cases s.gbQuit <;> rfl
    · cases s.gbQuit <;> simp
  | wait =>
    obtain ⟨hg, rfl⟩ := guard_some hs
    refine ⟨xs, { h with order := ?_, popping := by simp, gone := h.busy (by simp [hg.1]) }, .inl rfl⟩
    rw [h.order, hg.1]
    rfl
  | ringTest =>
    obtain ⟨hg, rfl⟩ := guard_some hs
    refine ⟨xs, { h with order := ?_, popping := ?_, gone := h.busy (by simp [hg]) }, .inl rfl⟩
    · rw [h.order, hg]
      cases s.gMsgRing.isEmpty <;> rfl
    · have := h.isEmpty
      cases he : s.gMsgRing.isEmpty with
      | true => simp
      | false => exact fun _ hx => by rw [this.2 hx] at he; cases he
  | pop =>
    obtain ⟨hg, rfl⟩ := guard_some hs
    cases xs with
    | nil => exact absurd rfl (h.popping hg)
    | cons m xs => exact ⟨xs, (h.pop hg).1, .inr (.inr ⟨rfl, m, (h.pop hg).2⟩)⟩
  | onEvent =>
    simp only [MainJni.step] at hs
    split at hs
    · rename_i m hw
      cases hs
      refine ⟨xs, { h with order := ?_, popping := by simp, gone := h.busy (by simp [hw]) }, .inl rfl⟩
      rw [h.order, hw]
      simp [inHand]
    · cases hs

theorem queued_reach (h : (machine ndebug).Reach s) : ∃ xs, Queued ndebug s xs := by
  refine Machine.Reach.invariant (I := fun s => ∃ xs, Queued ndebug s xs) ?_ ?_ h
  · rintro s ⟨fresh, rfl⟩
    exact ⟨[], queued_start fresh⟩
  · rintro s a s' ⟨xs, hq⟩ hs
    obtain ⟨ys, hy, -⟩ := hq.step hs
    exact ⟨ys, hy⟩

/-! ## Wakeups -/

/-- The worker blocks before it tests the ring again. -/
def Asleep (s : MainJni) : Prop := s.worker = .waiting ∨ (s.worker = .loopTest ∧ s.gbQuit = false)

instance (s : MainJni) : Decidable s.Asleep := inferInstanceAs (Decidable (_ ∨ _))

/-- The call saw the ring not empty. -/
def sawItems : ProducerPc → Bool
  | .tested false _ => true
  | _ => false

/-- **A step that loses no wakeup**: not a push below capacity by a call that saw the ring not empty, when the worker
blocks before it tests the ring again and `ghEvent` is 0; and not a `nativeInit` over a ring that is not empty. -/
def Signalled (s : MainJni) : JniStep → Prop
  | .push => sawItems s.producer = true → s.gMsgRing.isFull = false → s.Asleep → 0 < s.ghEvent
  | .nativeInit => s.gMsgRing.isEmpty = true
  | _ => True

instance : ∀ (s : MainJni) (a : JniStep), Decidable (Signalled s a)
  | _, .push => inferInstanceAs (Decidable (_ → _))
  | _, .nativeInit => inferInstanceAs (Decidable (_ = _))
  | _, .nativeConnect | _, .setQuit | _, .postQuit | _, .join | _, .unload | _, .testEmpty _ _ | _, .post | _, .loopTest
  | _, .wait | _, .ringTest | _, .pop | _, .onEvent => isTrue trivial

/-- A worker that blocks before it tests a ring that is not empty will be woken. -/
def Woken (s : MainJni) (xs : List MsgItem) : Prop :=
  xs ≠ [] → s.Asleep → 0 < s.ghEvent ∨ s.producer = .pushed true

theorem Woken.step (hw : Woken s xs) (h : Queued ndebug s xs) (hok : Signalled s a)
    (hs : MainJni.step ndebug s a = some s') : ∃ ys, Queued ndebug s' ys ∧ Woken s' ys := by
  obtain ⟨ys, hy, hcase⟩ := h.step hs
  refine ⟨ys, hy, fun hne ha => ?_⟩
  have hpop : a ≠ .pop := by
    rintro rfl
    obtain ⟨hg, rfl⟩ := guard_some hs
    cases xs with
    | nil => exact h.popping hg rfl
    | cons m xs => rcases ha with ha | ha <;> simp [(h.pop hg).2] at ha
  by_cases hpush : a = .push
  · subst hpush
    simp only [MainJni.step] at hs
    split at hs
    · rename_i bSignal m hp
      cases hs
      obtain ⟨-, k1, k2, k3, k4⟩ := h.push bSignal m
      cases bSignal with
      | true => exact .inr k1
      | false =>
        left
        rw [k4]
        have ha' : s.Asleep := by
          unfold Asleep at ha ⊢
          rw [k2, k3] at ha
          exact ha
        by_cases hf : s.gMsgRing.isFull = true
        · -- nothing was pushed, and the ring was not empty
          have hx : xs ≠ [] := by
            rintro rfl
            rw [h.holds.isFull, decide_eq_true_eq, h.size] at hf
            cases hf
          refine (hw hx ha').resolve_right fun hp' => ?_
          rw [hp] at hp'
          cases hp'
        · exact hok (by rw [hp]; rfl) (by simpa using hf) ha'
    · cases hs
  · obtain rfl : ys = xs := hcase.resolve_right (by simp [hpush, hpop])
    have hlast : s.Asleep → s'.ghEvent = s.ghEvent → s'.producer = s.producer →
        0 < s'.ghEvent ∨ s'.producer = .pushed true := by
      intro h1 h2 h3
      rw [h2, h3]
      exact hw hne h1
    cases a with
    | nativeInit => exact absurd (h.isEmpty.1 hok) hne
    | nativeConnect =>
      obtain ⟨-, rfl⟩ := guard_some hs
      exact hlast ha rfl rfl
    | setQuit =>
      obtain ⟨-, rfl⟩ := guard_some hs
      refine hlast (.inl (ha.resolve_right ?_)) rfl rfl
      simp
    | postQuit =>
      obtain ⟨-, rfl⟩ := guard_some hs
      exact .inl (Nat.succ_pos _)
    | join =>
      obtain ⟨-, rfl⟩ := guard_some hs
      simp [Asleep] at ha
    | unload =>
      obtain ⟨-, rfl⟩ := guard_some hs
      exact hlast ha rfl rfl
    | testEmpty msgCode szDevId =>
      obtain ⟨hg, rfl⟩ := guard_some hs
      refine .inl ((hw hne ha).resolve_right ?_)
      simp [hg.2]
    | push => exact absurd rfl hpush
    | post =>
      simp only [MainJni.step] at hs
      split at hs
      · rename_i bSignal hp
        cases hs
        left
        cases bSignal with
        | true => exact Nat.succ_pos _
        | false => exact (hw hne ha).resolve_right (by simp [hp])
      · cases hs
    | loopTest =>
      obtain ⟨hg, rfl⟩ := guard_some hs
      cases hq : s.gbQuit with
      | true => simp [Asleep, hq] at ha
      | false => exact hlast (.inr ⟨hg, hq⟩) rfl rfl
    | wait =>
      obtain ⟨-, rfl⟩ := guard_some hs
      simp [Asleep] at ha
    | ringTest =>
      obtain ⟨-, rfl⟩ := guard_some hs
      cases he : s.gMsgRing.isEmpty with
      | true => exact absurd (h.isEmpty.1 he) hne
      | false => simp [Asleep, he] at ha
    | pop => exact absurd rfl hpop
    | onEvent =>
      simp only [MainJni.step] at hs
      split at hs
      · cases hs
        simp [Asleep] at ha
      · cases hs

theorem woken_reach (h : (machine ndebug).ReachWhen Signalled s) : ∃ xs, Queued ndebug s xs ∧ Woken s xs := by
  refine Machine.ReachWhen.invariant (I := fun s => ∃ xs, Queued ndebug s xs ∧ Woken s xs) ?_ ?_ h
  · rintro s ⟨fresh, rfl⟩
    exact ⟨[], queued_start fresh, fun hn => absurd rfl hn⟩
  · rintro s a s' ⟨xs, hq, hw⟩ hok hs
    exact hw.step hq hok hs

/-- A worker in `sem_wait` with `ghEvent` at 0 and no `ProcessDbMsg` call in progress has nothing to do. -/
def NoLostWakeup (s : MainJni) : Prop :=
  s.worker = .waiting → s.ghEvent = 0 → s.producer = .idle → s.gMsgRing.isEmpty = true

/-- **When no wakeup is lost**: in every run without a push that goes unsignalled and without a `nativeInit` over a ring
that is not empty.  In every run at all the messages handed on are a prefix of those pushed. -/
theorem noLostWakeup (ndebug : Bool) :
    (∀ s, (machine ndebug).ReachWhen Signalled s → NoLostWakeup s) ∧
      ∀ s, (machine ndebug).Reach s → s.handed <+: s.pushed ∧ s.failed = false := by
  refine ⟨fun s h hwait hev hidle => ?_, fun s h => ?_⟩
  · obtain ⟨xs, hq, hw⟩ := woken_reach h
    rw [hq.isEmpty]
    by_contra hne
    rcases hw hne (.inl hwait) with h1 | h1
    · omega
    · rw [hidle] at h1
      cases h1
  · obtain ⟨xs, hq⟩ := queued_reach h
    refine ⟨⟨inHand s.worker ++ xs, ?_⟩, hq.fine⟩
    rw [hq.order, List.append_assoc]

/-- What a run from the start comes to. -/
def seen (s : MainJni) : WorkerPc × Nat × ProducerPc × Bool := (s.worker, s.ghEvent, s.producer, s.gMsgRing.isEmpty)

/-- One message, handed on. -/
def servedRun : List JniStep := [.nativeInit, .nativeConnect, .loopTest, .testEmpty 0x1000 [], .push, .post, .wait,
  .ringTest, .pop, .onEvent, .ringTest, .loopTest]

theorem noLostWakeup_servedRun : ∃ s, (machine false).runWhen Signalled (start false fun _ => none) servedRun = some s ∧
    s.worker = .waiting ∧ s.gMsgRing.isEmpty = true ∧ s.handed <+: s.pushed := by
  obtain ⟨s, hs, hf⟩ := Option.map_eq_some_iff.1 (show ((machine false).runWhen Signalled (start false fun _ => none)
    servedRun).map (fun s => (s.worker, s.ghEvent, s.producer)) = some (.waiting, 0, .idle) by decide)
  obtain ⟨h1, h2, h3⟩ : s.worker = .waiting ∧ s.ghEvent = 0 ∧ s.producer = .idle := by simpa using hf
  have hr : (machine false).ReachWhen Signalled s := .runWhen (.init (init_start _ _)) hs
  exact ⟨s, hs, h1, (noLostWakeup false).1 s hr h1 h2 h3, ((noLostWakeup false).2 s hr.reach).1⟩

/-- The worker pops and blocks between the two tests of a call and its push. -/
def unsignalledRun : List JniStep := [.nativeInit, .nativeConnect, .loopTest, .testEmpty 0x1000 [], .push, .post, .wait,
  .ringTest, .testEmpty 1 [], .pop, .onEvent, .ringTest, .loopTest, .push, .post]

/-- The client's `OnStopped` pushes after the worker was joined, and the service is initialised again. -/
def restartRun : List JniStep := servedRun ++ [.setQuit, .postQuit, .wait, .ringTest, .loopTest, .join,
  .testEmpty 0x1001 [], .push, .post, .unload, .nativeInit, .loopTest]

/-- **Two lost wakeups**: a message is in the ring, the worker is in `sem_wait` with `ghEvent` at 0, and no call is in
progress. -/
theorem wakeup_lost :
    ((machine false).run (start false fun _ => none) unsignalledRun).map seen = some (.waiting, 0, .idle, false) ∧
    ((machine false).run (start false fun _ => none) restartRun).map seen = some (.waiting, 0, .idle, false) ∧
    ¬ ∀ s, (machine false).Reach s → NoLostWakeup s := by
  have h1 : ((machine false).run (start false fun _ => none) unsignalledRun).map seen =
      some (.waiting, 0, .idle, false) := by decide
  refine ⟨h1, by decide, fun hall => ?_⟩
  obtain ⟨s, hs, hf⟩ := Option.map_eq_some_iff.1 h1
  obtain ⟨k1, k2, k3, k4⟩ : s.worker = .waiting ∧ s.ghEvent = 0 ∧ s.producer = .idle ∧ s.gMsgRing.isEmpty = false := by
    simpa [seen] using hf
  have hr : (machine false).Reach s := (Machine.Reach.init (init_start _ _)).run hs
  rw [hall s hr k1 k2 k3] at k4
  cases k4

end MainJni

end DevMgr
