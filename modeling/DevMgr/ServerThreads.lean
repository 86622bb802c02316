import DevMgr.Monitor
import DevMgr.Progress
/-!
# ServerThreads — the four threads of the server and their end

`init_server_thread` of `hello-jni.c` creates the two loop threads, `main` and `bc_main`, and the two packet threads of
`s_process.c`, which wait for a packet or for `quit`.  `exit_server_thread` sets `quit`, without a mutex, signals both
conditions under theirs and destroys them; it joins the packet threads, destroys the mutexes, and sends each loop its
`ev_async` before it joins it.

What Java runs is a list of operations, `todo`.  The packet threads test `quit` twice outside of their mutex and once in
it.  Nothing in the program puts a packet into a list; other code may, while nobody holds the mutex.  A loop comes to
run, and its watcher then forgets what was sent before; `turn` is any callback but that of the watcher.  `failed`
records a call on a mutex, a condition or a loop that is not defined.
-/
namespace DevMgr

open Machines Monitors

inductive PktList where
  | snd
  | rcv
  deriving DecidableEq, Repr

inductive LoopThread where
  | main
  | bc
  deriving DecidableEq, Repr

/-- Those that use the mutex of a packet list. -/
inductive ListUser where
  | java
  | pkt
  deriving DecidableEq, Repr

instance : Fintype ListUser := ⟨{.java, .pkt}, by rintro (_ | _) <;> simp⟩

/-- Where `handle_snd_pkt` or `handle_rcv_pkt` is: not created, before a test or a call, in `pthread_cond_wait`, before
the `if` and the two unlocks, or at its end. -/
inductive PktPc where
  | absent
  | loopTest
  | lock
  | countTest
  | quitTest
  | condWait
  | inWait
  | exitTest
  | unlock
  | unlockExit
  | returned
  deriving DecidableEq, Repr

inductive LoopPc where
  | absent
  | starting
  | running
  | returned
  deriving DecidableEq, Repr

inductive JavaOp where
  | createLoop (l : LoopThread)
  | mutexInit (q : PktList)
  | initListHead (q : PktList)
  | condInit (q : PktList)
  | createPkt (q : PktList)
  | setQuit
  | lock (q : PktList)
  | signal (q : PktList)
  | unlock (q : PktList)
  | condDestroy (q : PktList)
  | joinPkt (q : PktList)
  | mutexDestroy (q : PktList)
  | asyncSend (l : LoopThread)
  | joinLoop (l : LoopThread)
  | clientMutexDestroy
  deriving DecidableEq, Repr

def initServerThread : List JavaOp :=
  [.createLoop .bc, .createLoop .main, .mutexInit .rcv, .initListHead .rcv, .mutexInit .snd, .initListHead .snd,
    .condInit .snd, .condInit .rcv, .createPkt .rcv, .createPkt .snd]

def exitAllThread : List JavaOp :=
  [.setQuit, .lock .snd, .signal .snd, .unlock .snd, .lock .rcv, .signal .rcv, .unlock .rcv, .condDestroy .snd,
    .condDestroy .rcv]

def exitServerThread : List JavaOp :=
  exitAllThread ++ [.joinPkt .snd, .joinPkt .rcv, .mutexDestroy .snd, .mutexDestroy .rcv, .asyncSend .main,
    .joinLoop .main, .clientMutexDestroy, .asyncSend .bc, .joinLoop .bc]

structure ServerThreads where
  quit : Bool
  mon : PktList → Monitor ListUser
  entries : PktList → Nat
  pkt : PktList → PktPc
  loop : LoopThread → LoopPc
  sent : LoopThread → Bool
  clientMutex : Bool
  todo : List JavaOp
  up : Bool
  failed : Bool

inductive ThreadStep where
  | serverInit
  | serverExit
  | java
  | pkt (q : PktList)
  | wake (q : PktList)
  | entries (q : PktList) (n : Nat)
  | started (l : LoopThread)
  | turn (l : LoopThread)
  | asyncCb (l : LoopThread)
  deriving DecidableEq, Repr

/-- The thread has the mutex of its list. -/
def PktPc.holds : PktPc → Bool
  | .countTest | .quitTest | .condWait | .exitTest | .unlock | .unlockExit => true
  | _ => false

@[simp] theorem PktPc.holds_absent : PktPc.absent.holds = false := rfl

namespace ServerThreads

/-- A call on the mutex or the condition of a list, when it returns. -/
def exec (s : ServerThreads) (q : PktList) (c : MonitorCall ListUser) : Option ServerThreads :=
  if (s.mon q).ready c = true then
    some { s with
      mon := Function.update s.mon q ((s.mon q).call c), failed := s.failed || !decide ((s.mon q).Legal c) }
  else none

def setPkt (s : ServerThreads) (q : PktList) (pc : PktPc) : ServerThreads :=
  { s with pkt := Function.update s.pkt q pc }

def setLoop (s : ServerThreads) (l : LoopThread) (pc : LoopPc) : ServerThreads :=
  { s with loop := Function.update s.loop l pc }

/-- `pthread_create` of a thread that is not there. -/
def createLoop (s : ServerThreads) (l : LoopThread) : ServerThreads :=
  { s.setLoop l .starting with failed := s.failed || s.loop l != .absent }

def createPkt (s : ServerThreads) (q : PktList) : ServerThreads :=
  { s.setPkt q .loopTest with failed := s.failed || s.pkt q != .absent }

/-- `ev_async_send` to a loop that is there. -/
def asyncSend (s : ServerThreads) (l : LoopThread) : ServerThreads :=
  { s with sent := Function.update s.sent l true, failed := s.failed || s.loop l == .absent }

def op (s : ServerThreads) : JavaOp → Option ServerThreads
  | .createLoop l => some (s.createLoop l)
  | .mutexInit q => s.exec q .mutexInit
  | .initListHead q => some { s with entries := Function.update s.entries q 0 }
  | .condInit q => s.exec q .condInit
  | .createPkt q => some (s.createPkt q)
  | .setQuit => some { s with quit := true }
  | .lock q => s.exec q (.lock .java)
  | .signal q => s.exec q (.signal .pkt)
  | .unlock q => s.exec q (.unlock .java)
  | .condDestroy q => s.exec q .condDestroy
  | .joinPkt q => if s.pkt q = .returned then some (s.setPkt q .absent) else none
  | .mutexDestroy q => s.exec q .mutexDestroy
  | .asyncSend l => some (s.asyncSend l)
  | .joinLoop l => if s.loop l = .returned then some (s.setLoop l .absent) else none
  | .clientMutexDestroy => some { s with clientMutex := false, failed := s.failed || !s.clientMutex }

/-- The thread of `handle_snd_pkt` or `handle_rcv_pkt`. -/
def pktStep (s : ServerThreads) (q : PktList) : Option ServerThreads :=
  match s.pkt q with
  | .loopTest => some (s.setPkt q (if s.quit = true then .returned else .lock))
  | .lock => (s.exec q (.lock .pkt)).map (·.setPkt q .countTest)
  | .countTest => some (s.setPkt q (if s.entries q = 0 then .quitTest else .exitTest))
  | .quitTest => some (s.setPkt q (if s.quit = true then .exitTest else .condWait))
  | .condWait => (s.exec q (.wait .pkt)).map (·.setPkt q .inWait)
  | .inWait => (s.exec q (.resume .pkt)).map (·.setPkt q .countTest)
  | .exitTest => some (s.setPkt q (if s.quit = true then .unlockExit else .unlock))
  | .unlock => (s.exec q (.unlock .pkt)).map (·.setPkt q .loopTest)
  | .unlockExit => (s.exec q (.unlock .pkt)).map (·.setPkt q .returned)
  | .absent | .returned => none

/-- The callbacks of `main` use `client_list_mutex`. -/
def useClients (s : ServerThreads) (l : LoopThread) : ServerThreads :=
  { s with failed := s.failed || (l == .main && !s.clientMutex) }

def step (s : ServerThreads) : ThreadStep → Option ServerThreads
  | .serverInit => if s.todo = [] ∧ s.up = false then some { s with todo := initServerThread, up := true } else none
  | .serverExit => if s.todo = [] ∧ s.up = true then some { s with todo := exitServerThread, up := false } else none
  | .java => match s.todo with
    | [] => none
    | o :: rest => (s.op o).map fun s' => { s' with todo := rest }
  | .pkt q => s.pktStep q
  | .wake q => if (s.mon q).blocked .pkt = true then s.exec q (.wake .pkt) else none
  | .entries q n => if (s.mon q).mutexLive = true ∧ (s.mon q).holder = none then
      some { s with entries := Function.update s.entries q n } else none
  | .started l => if s.loop l = .starting then
      some { s.setLoop l .running with
        sent := Function.update s.sent l false, clientMutex := s.clientMutex || l == .main } else none
  | .turn l => if s.loop l = .running then some (s.useClients l) else none
  | .asyncCb l => if s.loop l = .running ∧ s.sent l = true then some ((s.useClients l).setLoop l .returned) else none

def start : ServerThreads :=
  { quit := false, mon := fun _ => .dead, entries := fun _ => 0, pkt := fun _ => .absent, loop := fun _ => .absent
    sent := fun _ => false, clientMutex := false, todo := [], up := false, failed := false }

def machine : Machine ServerThreads ThreadStep where
  init s := s = start
  step := step

/-! ## The order of the operations -/

/-- What is behind `a` in a list without duplicates is still to come as long as `a` is. -/
theorem mem_of_suffix {α : Type} {a b : α} {l t : List α} (hn : l.Nodup) (hab : [a, b].Sublist l) (ht : t <:+ l)
    (ha : a ∈ t) : b ∈ t := by
  obtain ⟨p, rfl⟩ := ht
  have hp : a ∉ p := fun hm => (List.disjoint_of_nodup_append hn) hm ha
  obtain ⟨l₁, l₂, he, h₁, h₂⟩ := List.sublist_append_iff.1 hab
  cases l₁ with
  | nil =>
    rw [List.nil_append] at he
    subst he
    exact h₂.subset (by simp)
  | cons x l₁ =>
    rw [List.cons_append, List.cons.injEq] at he
    exact absurd (h₁.subset (by simp [he.1])) hp

theorem nodup_exit : exitServerThread.Nodup := by decide

theorem nodup_init : initServerThread.Nodup := by decide

/-- What Java runs: the rest of one of the two calls. -/
def Calls (s : ServerThreads) : Prop := s.todo <:+ (if s.up = true then initServerThread else exitServerThread)

/-- Between the operation that makes a thing and the one that ends it. -/
def Alive (s : ServerThreads) (i d : JavaOp) : Prop := if s.up = true then i ∉ s.todo else d ∈ s.todo

variable {s s' : ServerThreads} {q : PktList} {l : LoopThread} {o a b i d : JavaOp} {rest : List JavaOp}

theorem Calls.down (h : s.Calls) (hi : a ∉ initServerThread) (ha : a ∈ s.todo) : s.up = false := by
  by_contra hn
  have hup : s.up = true := by simpa using hn
  have hsuf : s.todo <:+ initServerThread := by simpa [Calls, hup] using h
  exact hi (hsuf.subset ha)

theorem Calls.starting (h : s.Calls) (hi : a ∉ exitServerThread) (ha : a ∈ s.todo) : s.up = true := by
  by_contra hn
  have hup : s.up = false := by simpa using hn
  have hsuf : s.todo <:+ exitServerThread := by simpa [Calls, hup] using h
  exact hi (hsuf.subset ha)

theorem Calls.exit_mem (h : s.Calls) (hab : [a, b].Sublist exitServerThread) (hi : a ∉ initServerThread)
    (ha : a ∈ s.todo) : s.up = false ∧ b ∈ s.todo := by
  have hup := h.down hi ha
  have hsuf : s.todo <:+ exitServerThread := by simpa [Calls, hup] using h
  exact ⟨hup, mem_of_suffix nodup_exit hab hsuf ha⟩

theorem Calls.init_mem (h : s.Calls) (hab : [a, b].Sublist initServerThread) (hi : a ∉ exitServerThread)
    (ha : a ∈ s.todo) : s.up = true ∧ b ∈ s.todo := by
  have hup := h.starting hi ha
  have hsuf : s.todo <:+ initServerThread := by simpa [Calls, hup] using h
  exact ⟨hup, mem_of_suffix nodup_init hab hsuf ha⟩

/-- The next operation is not among the others. -/
theorem Calls.head (h : s.Calls) (ht : s.todo = o :: rest) : o ∉ rest := by
  unfold Calls at h
  rw [ht] at h
  split at h
  · exact (List.nodup_cons.1 (nodup_init.sublist h.sublist)).1
  · exact (List.nodup_cons.1 (nodup_exit.sublist h.sublist)).1

/-- What is before the next operation has been run. -/
theorem Calls.gone (h : s.Calls) (ht : s.todo = o :: rest) (hab : [a, o].Sublist exitServerThread)
    (hi : a ∉ initServerThread) : a ∉ s.todo := by
  intro hm
  have hne : a ≠ o := by
    have := nodup_exit.sublist hab
    simpa using this
  have hup := (h.exit_mem hab hi hm).1
  have hsuf : rest <:+ exitServerThread := by
    have hc : s.todo <:+ exitServerThread := by simpa [Calls, hup] using h
    rw [ht] at hc
    exact (List.suffix_cons o rest).trans hc
  have hr : a ∈ rest := by simpa [ht, hne] using hm
  exact h.head ht (mem_of_suffix nodup_exit hab hsuf hr)

theorem Alive.up (h : s.up = true) : s.Alive i d ↔ i ∉ s.todo := by simp [Alive, h]

theorem Alive.down (h : s.up = false) : s.Alive i d ↔ d ∈ s.todo := by simp [Alive, h]

/-- What is made before and ended after another thing outlives it. -/
theorem Alive.outlives (h : s.Alive i d) (hc : s.Calls) (hi : [a, i].Sublist initServerThread)
    (hd : [d, b].Sublist exitServerThread) (ha : a ∉ exitServerThread) (hd' : d ∉ initServerThread) : s.Alive a b := by
  cases hu : s.up with
  | true =>
    rw [Alive.up hu] at h ⊢
    exact fun hm => h (hc.init_mem hi ha hm).2
  | false =>
    rw [Alive.down hu] at h ⊢
    exact (hc.exit_mem hd hd' h).2

/-! ## What every run keeps -/

/-- The state of a list's mutex, condition and thread, by what Java has still to run.  A thread that read `quit` as
clear and still has the mutex, and one that is blocked, has the signal before it. -/
structure PktInv (s : ServerThreads) (q : PktList) : Prop where
  condLive : (s.mon q).condLive = true ↔ s.Alive (.condInit q) (.condDestroy q)
  mutexLive : (s.mon q).mutexLive = true ↔ s.Alive (.mutexInit q) (.mutexDestroy q)
  created : s.pkt q ≠ .absent ↔ s.Alive (.createPkt q) (.joinPkt q)
  pktHolds : (s.mon q).holder = some .pkt ↔ (s.pkt q).holds = true
  javaHolds : (s.mon q).holder = some .java ↔ .lock q ∉ s.todo ∧ .unlock q ∈ s.todo
  javaAwake : (s.mon q).blocked .java = false
  inWait : (s.mon q).blocked .pkt = true → s.pkt q = .inWait
  checked : s.pkt q = .condWait → s.quit = true → .lock q ∈ s.todo
  owed : (s.mon q).blocked .pkt = true → s.quit = true → .signal q ∈ s.todo

/-- `client_list_mutex` is there once `main` has come to run and until it is destroyed. -/
def ClientMutex (s : ServerThreads) : Prop :=
  s.clientMutex = true ↔ s.loop .main = .running ∨ s.loop .main = .returned ∨
    s.loop .main = .absent ∧ s.up = false ∧ .clientMutexDestroy ∈ s.todo

structure Inv (s : ServerThreads) : Prop where
  calls : s.Calls
  quits : s.up = false → s.todo ≠ [] → .setQuit ∉ s.todo → s.quit = true
  pkts : ∀ q, PktInv s q
  loops : ∀ l, s.loop l ≠ .absent ↔ s.Alive (.createLoop l) (.joinLoop l)
  clients : s.ClientMutex
  fine : s.failed = false

theorem Calls.congr (h : s.Calls) (hu : s'.up = s.up) (ht : s'.todo = s.todo) : s'.Calls := by
  unfold Calls
  rw [hu, ht]
  exact h

theorem alive_congr (hu : s'.up = s.up) (ht : s'.todo = s.todo) : s'.Alive i d ↔ s.Alive i d := by
  unfold Alive
  rw [hu, ht]

namespace PktInv

variable (h : PktInv s q) (hc : s.Calls)

include h hc

/-- The mutex is there as long as the thread is. -/
theorem mutexLive_of_created (hp : s.pkt q ≠ .absent) : (s.mon q).mutexLive = true := by
  refine h.mutexLive.2 ((h.created.1 hp).outlives hc ?_ ?_ ?_ ?_) <;> cases q <;> decide

/-- The condition is there as long as the signal is to come. -/
theorem condLive_of_signal (hm : .signal q ∈ s.todo) : (s.mon q).condLive = true := by
  have hd : s.up = false ∧ .condDestroy q ∈ s.todo := by
    refine hc.exit_mem ?_ ?_ hm <;> cases q <;> decide
  exact h.condLive.2 ((Alive.down hd.1).2 hd.2)

theorem signal_of_lock (hm : .lock q ∈ s.todo) : .signal q ∈ s.todo := by
  refine (hc.exit_mem ?_ ?_ hm).2 <;> cases q <;> decide

/-- The condition is there when the thread is to wait on it. -/
theorem condLive_of_condWait (hq : s.up = false → s.todo ≠ [] → .setQuit ∉ s.todo → s.quit = true)
    (hp : s.pkt q = .condWait) : (s.mon q).condLive = true := by
  have ha := h.created.1 (by simp [hp])
  rw [h.condLive]
  cases hu : s.up with
  | true =>
    rw [Alive.up hu] at ha ⊢
    refine fun hm => ha (hc.init_mem ?_ ?_ hm).2 <;> cases q <;> decide
  | false =>
    rw [Alive.down hu] at ha ⊢
    by_cases hs : .setQuit ∈ s.todo
    · refine (hc.exit_mem ?_ ?_ hs).2 <;> cases q <;> decide
    · have hl := h.checked hp (hq hu (List.ne_nil_of_mem ha) hs)
      refine (hc.exit_mem ?_ ?_ hl).2 <;> cases q <;> decide

end PktInv

/-- The operations on a list, its thread and its monitor. -/
def opsOf (q : PktList) : List JavaOp :=
  [.condInit q, .condDestroy q, .mutexInit q, .mutexDestroy q, .createPkt q, .joinPkt q, .lock q, .unlock q, .signal q]

/-- What leaves a list's monitor and thread as they are, and what is to come for them. -/
theorem PktInv.frame (h : PktInv s q) (hm : s'.mon q = s.mon q) (hp : s'.pkt q = s.pkt q) (hq : s'.quit = s.quit)
    (hu : s'.up = s.up) (ht : ∀ o ∈ opsOf q, o ∈ s'.todo ↔ o ∈ s.todo) : PktInv s' q := by
  have hal : ∀ i d, i ∈ opsOf q → d ∈ opsOf q → (s'.Alive i d ↔ s.Alive i d) := by
    intro i d hi hd
    unfold Alive
    rw [hu, ht i hi, ht d hd]
  exact {
    condLive := by rw [hm, hal _ _ (by simp [opsOf]) (by simp [opsOf])]; exact h.condLive
    mutexLive := by rw [hm, hal _ _ (by simp [opsOf]) (by simp [opsOf])]; exact h.mutexLive
    created := by rw [hp, hal _ _ (by simp [opsOf]) (by simp [opsOf])]; exact h.created
    pktHolds := by rw [hm, hp]; exact h.pktHolds
    javaHolds := by rw [hm, ht _ (by simp [opsOf]), ht _ (by simp [opsOf])]; exact h.javaHolds
    javaAwake := by rw [hm]; exact h.javaAwake
    inWait := by rw [hm, hp]; exact h.inWait
    checked := by rw [hp, hq, ht _ (by simp [opsOf])]; exact h.checked
    owed := by rw [hm, hq, ht _ (by simp [opsOf])]; exact h.owed }

/-- The list's monitor and thread alone change. -/
theorem PktInv.moves (h : PktInv s q) {m : Monitor ListUser} {pc : PktPc} (hs : s' = { s with
      mon := Function.update s.mon q m, pkt := Function.update s.pkt q pc })
    (hlive : m.condLive = (s.mon q).condLive ∧ m.mutexLive = (s.mon q).mutexLive) (hp : s.pkt q ≠ .absent)
    (hpc : pc ≠ .absent) (hpkt : m.holder = some .pkt ↔ pc.holds = true)
    (hjava : m.holder = some .java ↔ (s.mon q).holder = some .java) (hawake : m.blocked .java = false)
    (hwait : m.blocked .pkt = true → pc = .inWait) (hchecked : pc = .condWait → s.quit = true → .lock q ∈ s.todo)
    (howed : m.blocked .pkt = true → s.quit = true → .signal q ∈ s.todo) : PktInv s' q := by
  subst hs
  have hal : ∀ i d, ({ s with mon := Function.update s.mon q m, pkt := Function.update s.pkt q pc } :
    ServerThreads).Alive i d ↔ s.Alive i d := fun _ _ => Iff.rfl
  exact {
    condLive := by rw [hal, ← h.condLive]; simp [hlive.1]
    mutexLive := by rw [hal, ← h.mutexLive]; simp [hlive.2]
    created := by rw [hal, ← h.created]; simp [hp, hpc]
    pktHolds := by simpa using hpkt
    javaHolds := by simp only [Function.update_self]; rw [hjava]; exact h.javaHolds
    javaAwake := by simpa using hawake
    inWait := by simpa using hwait
    checked := by simpa using hchecked
    owed := by simpa using howed }

theorem exec_some {c : MonitorCall ListUser} (h : s.exec q c = some s') (hl : (s.mon q).Legal c) :
    (s.mon q).ready c = true ∧ s' = { s with mon := Function.update s.mon q ((s.mon q).call c) } := by
  unfold exec at h
  split at h
  · refine ⟨‹_›, ?_⟩
    rw [← Option.some.inj h]
    simp [hl]
  · cases h

/-- A call of the packet thread, which takes it on. -/
theorem exec_map_some {c : MonitorCall ListUser} {pc : PktPc} (h : (s.exec q c).map (·.setPkt q pc) = some s')
    (hl : (s.mon q).Legal c) : (s.mon q).ready c = true ∧ s' = { s with
      mon := Function.update s.mon q ((s.mon q).call c), pkt := Function.update s.pkt q pc } := by
  obtain ⟨t, ht, rfl⟩ := Option.map_eq_some_iff.1 h
  obtain ⟨hr, rfl⟩ := exec_some ht hl
  exact ⟨hr, rfl⟩

/-- The thread goes on and calls nothing. -/
theorem PktInv.goes (h : PktInv s q) {pc : PktPc} (hp : s.pkt q ≠ .absent) (hpc : pc ≠ .absent)
    (hholds : pc.holds = (s.pkt q).holds) (hw : s.pkt q ≠ .inWait)
    (hchecked : pc = .condWait → s.quit = true → .lock q ∈ s.todo) : PktInv (s.setPkt q pc) q := by
  have hb : (s.mon q).blocked .pkt = false := by
    by_contra hn
    exact hw (h.inWait (by simpa using hn))
  refine h.moves (m := s.mon q) ?_ ⟨rfl, rfl⟩ hp hpc ?_ Iff.rfl h.javaAwake ?_ hchecked ?_
  · simp [setPkt]
  · rw [hholds]
    exact h.pktHolds
  · simp [hb]
  · simp [hb]

/-- The thread takes the mutex: nobody has it. -/
theorem PktInv.takes (h : PktInv s q) (hn : (s.mon q).holder = none) {m : Monitor ListUser} {pc : PktPc}
    (hs : s' = { s with mon := Function.update s.mon q m, pkt := Function.update s.pkt q pc })
    (hm : m = { s.mon q with holder := some .pkt }) (hp : s.pkt q ≠ .absent) (hpc : pc = .countTest)
    (hb : (s.mon q).blocked .pkt = false) : PktInv s' q := by
  subst hm hpc
  refine h.moves hs ⟨rfl, rfl⟩ hp ?_ ?_ ?_ h.javaAwake ?_ ?_ ?_
  · simp
  · simp [PktPc.holds]
  · simp [hn]
  · simp [hb]
  · simp
  · simp [hb]

/-- The thread gives the mutex back. -/
theorem PktInv.gives (h : PktInv s q) (hh : (s.mon q).holder = some .pkt) {m : Monitor ListUser} {pc : PktPc}
    (hs : s' = { s with mon := Function.update s.mon q m, pkt := Function.update s.pkt q pc })
    (hm : m = { s.mon q with holder := none }) (hp : (s.pkt q).holds = true) (hpc : pc ≠ .absent)
    (hholds : pc.holds = false) : PktInv s' q := by
  have hb : (s.mon q).blocked .pkt = false := by
    by_contra hn
    rw [h.inWait (by simpa using hn)] at hp
    cases hp
  subst hm
  refine h.moves hs ⟨rfl, rfl⟩ ?_ hpc ?_ ?_ h.javaAwake ?_ ?_ ?_
  · intro he
    rw [he] at hp
    cases hp
  · simp [hholds]
  · simp [hh]
  · simp [hb]
  · rintro rfl
    cases hholds
  · simp [hb]

/-- **What the packet thread does keeps the state of its list**, and every call it makes is defined. -/
theorem PktInv.pktStep (h : PktInv s q) (hc : s.Calls)
    (hq : s.up = false → s.todo ≠ [] → .setQuit ∉ s.todo → s.quit = true) (hs : s.pktStep q = some s') :
    PktInv s' q ∧ (∃ m pc, pc ≠ .absent ∧ s.pkt q ≠ .absent ∧
      s' = { s with mon := Function.update s.mon q m, pkt := Function.update s.pkt q pc }) := by
  have hlive : s.pkt q ≠ .absent → (s.mon q).mutexLive = true := h.mutexLive_of_created hc
  have hset : ∀ pc, s.setPkt q pc = { s with
      mon := Function.update s.mon q (s.mon q), pkt := Function.update s.pkt q pc } := fun pc => by simp [setPkt]
  unfold ServerThreads.pktStep at hs
  cases hp : s.pkt q with
  | absent | returned => simp [hp] at hs
  | loopTest =>
    simp only [hp] at hs
    cases hs
    refine ⟨h.goes (by simp [hp]) ?_ ?_ (by simp [hp]) ?_, _, _, ?_, by simp, hset _⟩
    all_goals split <;> simp [hp, PktPc.holds]
  | lock =>
    simp only [hp] at hs
    have hn : (s.mon q).holder ≠ some .pkt := fun he => by
      have := h.pktHolds.1 he
      simp [hp, PktPc.holds] at this
    obtain ⟨hr, hs⟩ := exec_map_some hs ⟨hlive (by simp [hp]), hn⟩
    have hb : (s.mon q).blocked .pkt = false := by
      by_contra hb
      have := h.inWait (by simpa using hb)
      simp [hp] at this
    exact ⟨h.takes (by simpa [Monitor.ready] using hr) hs rfl (by simp [hp]) rfl hb, _, _, by simp, by simp, hs⟩
  | countTest =>
    simp only [hp] at hs
    cases hs
    refine ⟨h.goes (by simp [hp]) ?_ ?_ (by simp [hp]) ?_, _, _, ?_, by simp, hset _⟩
    all_goals split <;> simp [hp, PktPc.holds]
  | quitTest =>
    simp only [hp] at hs
    cases hs
    refine ⟨h.goes (by simp [hp]) ?_ ?_ (by simp [hp]) ?_, _, _, ?_, by simp, hset _⟩
    all_goals split <;> simp [PktPc.holds, *]
  | condWait =>
    simp only [hp] at hs
    have hh : (s.mon q).holder = some .pkt := h.pktHolds.2 (by simp [hp, PktPc.holds])
    obtain ⟨-, hs⟩ := exec_map_some hs ⟨hlive (by simp [hp]), h.condLive_of_condWait hc hq hp, hh⟩
    refine ⟨h.moves hs ⟨rfl, rfl⟩ (by simp [hp]) (by simp) ?_ ?_ ?_ ?_ ?_ ?_, _, _, by simp, by simp, hs⟩
    · simp [Monitor.call, PktPc.holds]
    · simp [Monitor.call, hh]
    · simpa [Monitor.call] using h.javaAwake
    · simp
    · simp
    · intro _ hquit
      exact h.signal_of_lock hc (h.checked hp hquit)
  | inWait =>
    simp only [hp] at hs
    have hn : (s.mon q).holder ≠ some .pkt := fun he => by
      have := h.pktHolds.1 he
      simp [hp, PktPc.holds] at this
    obtain ⟨hr, hs⟩ := exec_map_some hs ⟨hlive (by simp [hp]), hn⟩
    simp only [Monitor.ready, Bool.and_eq_true, Option.isNone_iff_eq_none, Bool.not_eq_true'] at hr
    exact ⟨h.takes hr.1 hs rfl (by simp [hp]) rfl hr.2, _, _, by simp, by simp, hs⟩
  | exitTest =>
    simp only [hp] at hs
    cases hs
    refine ⟨h.goes (by simp [hp]) ?_ ?_ (by simp [hp]) ?_, _, _, ?_, by simp, hset _⟩
    all_goals split <;> simp [hp, PktPc.holds]
  | unlock =>
    simp only [hp] at hs
    have hh : (s.mon q).holder = some .pkt := h.pktHolds.2 (by simp [hp, PktPc.holds])
    obtain ⟨-, hs⟩ := exec_map_some hs ⟨hlive (by simp [hp]), hh⟩
    exact ⟨h.gives hh hs rfl (by simp [hp, PktPc.holds]) (by simp) rfl, _, _, by simp, by simp, hs⟩
  | unlockExit =>
    simp only [hp] at hs
    have hh : (s.mon q).holder = some .pkt := h.pktHolds.2 (by simp [hp, PktPc.holds])
    obtain ⟨-, hs⟩ := exec_map_some hs ⟨hlive (by simp [hp]), hh⟩
    exact ⟨h.gives hh hs rfl (by simp [hp, PktPc.holds]) (by simp) rfl, _, _, by simp, by simp, hs⟩

/-! ## What Java runs -/

/-- An operation that is not on the list. -/
theorem PktInv.pops (h : PktInv s q) (ht : s.todo = o :: rest) (ho : o ∉ opsOf q) (hm : s'.mon q = s.mon q)
    (hp : s'.pkt q = s.pkt q) (hq : s'.quit = s.quit) (hu : s'.up = s.up) (ht' : s'.todo = rest) : PktInv s' q := by
  refine h.frame hm hp hq hu fun x hx => ?_
  have hne : x ≠ o := by
    rintro rfl
    exact ho hx
  simp [ht, ht', hne]

/-- The calls of `exec` on another list. -/
theorem PktInv.other (h : PktInv s q) {q' : PktList} (hne : q ≠ q') {c : MonitorCall ListUser} (ht : s.todo = o :: rest)
    (ho : o ∉ opsOf q) {t : ServerThreads} (hs : s.exec q' c = some t) : PktInv { t with todo := rest } q := by
  unfold exec at hs
  split at hs
  · cases hs
    exact h.pops ht ho (Function.update_of_ne hne ..) rfl rfl rfl rfl
  · cases hs


theorem PktInv.mutexInit (h : PktInv s q) (hc : s.Calls) (ht : s.todo = .mutexInit q :: rest) {t : ServerThreads}
    (hs : s.exec q .mutexInit = some t) : PktInv { t with todo := rest } q ∧ t.failed = s.failed := by
  have hm : .mutexInit q ∈ s.todo := by simp [ht]
  have ho := hc.head ht
  have hn : s.up = true ∧ .createPkt q ∈ s.todo := by
    refine hc.init_mem ?_ ?_ hm <;> cases q <;> decide
  have hu : .unlock q ∉ s.todo := by
    intro hx
    have := hc.down (by cases q <;> decide) hx
    simp [hn.1] at this
  have hl : (s.mon q).Legal .mutexInit := by
    by_contra hne
    have := h.mutexLive.1 (by simpa [Monitor.Legal] using hne)
    exact (Alive.up hn.1).1 this hm
  obtain ⟨hr, rfl⟩ := exec_some hs hl
  refine ⟨?_, rfl⟩
  obtain ⟨h1, h2, h3, h4, h5, h6, h7, h8, h9⟩ := h
  simp only [Alive, ht, List.mem_cons, reduceCtorEq, false_or] at h1 h2 h3 h4 h5 h6 h7 h8 h9
  clear hs hc
  constructor <;> simp_all [Monitor.call, Alive, Monitor.ready, Monitor.Legal]

theorem PktInv.condInit (h : PktInv s q) (hc : s.Calls) (ht : s.todo = .condInit q :: rest) {t : ServerThreads}
    (hs : s.exec q .condInit = some t) : PktInv { t with todo := rest } q ∧ t.failed = s.failed := by
  have hm : .condInit q ∈ s.todo := by simp [ht]
  have ho := hc.head ht
  have hn : s.up = true ∧ .createPkt q ∈ s.todo := by
    refine hc.init_mem ?_ ?_ hm <;> cases q <;> decide
  have hl : (s.mon q).Legal .condInit := by
    by_contra hne
    have := h.condLive.1 (by simpa [Monitor.Legal] using hne)
    exact (Alive.up hn.1).1 this hm
  obtain ⟨hr, rfl⟩ := exec_some hs hl
  refine ⟨?_, rfl⟩
  obtain ⟨h1, h2, h3, h4, h5, h6, h7, h8, h9⟩ := h
  simp only [Alive, ht, List.mem_cons, reduceCtorEq, false_or] at h1 h2 h3 h4 h5 h6 h7 h8 h9
  clear hs hc
  constructor <;> simp_all [Monitor.call, Alive, Monitor.ready, Monitor.Legal]

theorem PktInv.lock (h : PktInv s q) (hc : s.Calls) (ht : s.todo = .lock q :: rest) {t : ServerThreads}
    (hs : s.exec q (.lock .java) = some t) : PktInv { t with todo := rest } q ∧ t.failed = s.failed := by
  have hm : .lock q ∈ s.todo := by simp [ht]
  have ho := hc.head ht
  have hd : s.up = false ∧ .mutexDestroy q ∈ s.todo := by
    refine hc.exit_mem ?_ ?_ hm <;> cases q <;> decide
  have hu : .unlock q ∈ s.todo := by
    refine (hc.exit_mem ?_ ?_ hm).2 <;> cases q <;> decide
  have hl : (s.mon q).Legal (.lock .java) := by
    refine ⟨h.mutexLive.2 ((Alive.down hd.1).2 hd.2), fun hj => ?_⟩
    exact (h.javaHolds.1 hj).1 hm
  have hw : (s.mon q).holder = none → s.pkt q ≠ .condWait := by
    intro hn hp
    have := h.pktHolds.2 (by rw [hp]; rfl)
    simp [hn] at this
  obtain ⟨hr, rfl⟩ := exec_some hs hl
  refine ⟨?_, rfl⟩
  obtain ⟨h1, h2, h3, h4, h5, h6, h7, h8, h9⟩ := h
  simp only [Alive, ht, List.mem_cons, reduceCtorEq, false_or] at h1 h2 h3 h4 h5 h6 h7 h8 h9
  clear hs hc
  constructor <;> simp_all [Monitor.call, Alive, Monitor.ready, Monitor.Legal]

theorem PktInv.signal (h : PktInv s q) (hc : s.Calls) (ht : s.todo = .signal q :: rest) {t : ServerThreads}
    (hs : s.exec q (.signal .pkt) = some t) : PktInv { t with todo := rest } q ∧ t.failed = s.failed := by
  have hm : .signal q ∈ s.todo := by simp [ht]
  have ho := hc.head ht
  have hl : (s.mon q).Legal (.signal .pkt) := h.condLive_of_signal hc hm
  obtain ⟨hr, rfl⟩ := exec_some hs hl
  refine ⟨?_, rfl⟩
  obtain ⟨h1, h2, h3, h4, h5, h6, h7, h8, h9⟩ := h
  simp only [Alive, ht, List.mem_cons, reduceCtorEq, false_or] at h1 h2 h3 h4 h5 h6 h7 h8 h9
  clear hs hc
  constructor <;> simp_all [Monitor.call, Alive, Monitor.ready, Monitor.Legal]

theorem PktInv.unlock (h : PktInv s q) (hc : s.Calls) (ht : s.todo = .unlock q :: rest) {t : ServerThreads}
    (hs : s.exec q (.unlock .java) = some t) : PktInv { t with todo := rest } q ∧ t.failed = s.failed := by
  have hm : .unlock q ∈ s.todo := by simp [ht]
  have ho := hc.head ht
  have hd : s.up = false ∧ .mutexDestroy q ∈ s.todo := by
    refine hc.exit_mem ?_ ?_ hm <;> cases q <;> decide
  have hg : .lock q ∉ s.todo := by
    refine hc.gone ht ?_ ?_ <;> cases q <;> decide
  have hl : (s.mon q).Legal (.unlock .java) := ⟨h.mutexLive.2 ((Alive.down hd.1).2 hd.2), h.javaHolds.2 ⟨hg, hm⟩⟩
  obtain ⟨hr, rfl⟩ := exec_some hs hl
  refine ⟨?_, rfl⟩
  obtain ⟨h1, h2, h3, h4, h5, h6, h7, h8, h9⟩ := h
  simp only [Alive, ht, List.mem_cons, reduceCtorEq, false_or] at h1 h2 h3 h4 h5 h6 h7 h8 h9
  clear hs hc
  constructor <;> simp_all [Monitor.call, Alive, Monitor.ready, Monitor.Legal]

/-- No thread is blocked on a condition that is destroyed: the signal was under the mutex. -/
theorem PktInv.condDestroy (h : PktInv s q) (hc : s.Calls) (ht : s.todo = .condDestroy q :: rest) {t : ServerThreads}
    (hquit : s.quit = true) (hs : s.exec q .condDestroy = some t) :
    PktInv { t with todo := rest } q ∧ t.failed = s.failed := by
  have hm : .condDestroy q ∈ s.todo := by simp [ht]
  have ho := hc.head ht
  have hd : s.up = false ∧ .joinPkt q ∈ s.todo := by
    refine hc.exit_mem ?_ ?_ hm <;> cases q <;> decide
  have hg : .signal q ∉ s.todo := by
    refine hc.gone ht ?_ ?_ <;> cases q <;> decide
  have hl : (s.mon q).Legal .condDestroy := by
    refine ⟨h.condLive.2 ((Alive.down hd.1).2 hm), fun u => ?_⟩
    cases u with
    | java => exact h.javaAwake
    | pkt =>
      by_contra hb
      exact hg (h.owed (by simpa using hb) hquit)
  obtain ⟨hr, rfl⟩ := exec_some hs hl
  refine ⟨?_, rfl⟩
  obtain ⟨h1, h2, h3, h4, h5, h6, h7, h8, h9⟩ := h
  simp only [Alive, ht, List.mem_cons, reduceCtorEq, false_or] at h1 h2 h3 h4 h5 h6 h7 h8 h9
  clear hs hc
  constructor <;> simp_all [Monitor.call, Alive, Monitor.ready, Monitor.Legal]

/-- Nobody has a mutex that is destroyed: its thread has been joined. -/
theorem PktInv.mutexDestroy (h : PktInv s q) (hc : s.Calls) (ht : s.todo = .mutexDestroy q :: rest) {t : ServerThreads}
    (hs : s.exec q .mutexDestroy = some t) : PktInv { t with todo := rest } q ∧ t.failed = s.failed := by
  have hm : .mutexDestroy q ∈ s.todo := by simp [ht]
  have ho := hc.head ht
  have hup : s.up = false := by
    refine hc.down ?_ hm
    cases q <;> decide
  have hj : .joinPkt q ∉ s.todo := by
    refine hc.gone ht ?_ ?_ <;> cases q <;> decide
  have hu : .unlock q ∉ s.todo := by
    refine hc.gone ht ?_ ?_ <;> cases q <;> decide
  have hl : (s.mon q).Legal .mutexDestroy := by
    refine ⟨h.mutexLive.2 ((Alive.down hup).2 hm), ?_⟩
    cases hh : (s.mon q).holder with
    | none => rfl
    | some u =>
      cases u with
      | java => exact absurd (h.javaHolds.1 hh).2 hu
      | pkt =>
        have hp : s.pkt q ≠ .absent := fun he => by
          have := h.pktHolds.1 hh
          simp [he] at this
        exact absurd ((Alive.down hup).1 (h.created.1 hp)) hj
  obtain ⟨hr, rfl⟩ := exec_some hs hl
  refine ⟨?_, rfl⟩
  obtain ⟨h1, h2, h3, h4, h5, h6, h7, h8, h9⟩ := h
  simp only [Alive, ht, List.mem_cons, reduceCtorEq, false_or] at h1 h2 h3 h4 h5 h6 h7 h8 h9
  clear hs hc
  constructor <;> simp_all [Monitor.call, Alive, Monitor.ready, Monitor.Legal]

theorem PktInv.createPkt (h : PktInv s q) (hc : s.Calls) (ht : s.todo = .createPkt q :: rest) :
    PktInv { s.createPkt q with todo := rest } q ∧ (s.createPkt q).failed = s.failed := by
  have hm : .createPkt q ∈ s.todo := by simp [ht]
  have ho := hc.head ht
  have hup : s.up = true := by
    refine hc.starting ?_ hm
    cases q <;> decide
  have hp : s.pkt q = .absent := by
    by_contra hne
    exact (Alive.up hup).1 (h.created.1 hne) hm
  refine ⟨?_, by simp [ServerThreads.createPkt, hp]⟩
  obtain ⟨h1, h2, h3, h4, h5, h6, h7, h8, h9⟩ := h
  simp only [Alive, ht, List.mem_cons, reduceCtorEq, false_or] at h1 h2 h3 h4 h5 h6 h7 h8 h9
  clear hc
  constructor <;> simp_all [Alive, ServerThreads.createPkt, setPkt, PktPc.holds]

theorem PktInv.joinPkt (h : PktInv s q) (hc : s.Calls) (ht : s.todo = .joinPkt q :: rest) (hp : s.pkt q = .returned) :
    PktInv { s.setPkt q .absent with todo := rest } q := by
  have hm : .joinPkt q ∈ s.todo := by simp [ht]
  have ho := hc.head ht
  have hup : s.up = false := by
    refine hc.down ?_ hm
    cases q <;> decide
  obtain ⟨h1, h2, h3, h4, h5, h6, h7, h8, h9⟩ := h
  simp only [Alive, ht, List.mem_cons, reduceCtorEq, false_or] at h1 h2 h3 h4 h5 h6 h7 h8 h9
  clear hc
  constructor <;> simp_all [Alive, setPkt, PktPc.holds]

/-- `quit` is set with every signal still to come. -/
theorem PktInv.setQuit (h : PktInv s q) (hc : s.Calls) (ht : s.todo = .setQuit :: rest) :
    PktInv { s with quit := true, todo := rest } q := by
  have hm : .setQuit ∈ s.todo := by simp [ht]
  have hl : .lock q ∈ s.todo := by
    refine (hc.exit_mem ?_ ?_ hm).2 <;> cases q <;> decide
  have hs : .signal q ∈ s.todo := by
    refine (hc.exit_mem ?_ ?_ hm).2 <;> cases q <;> decide
  obtain ⟨h1, h2, h3, h4, h5, h6, h7, h8, h9⟩ := h
  simp only [Alive, ht, List.mem_cons, reduceCtorEq, false_or] at h1 h2 h3 h4 h5 h6 h7 h8 h9 hl hs
  clear hc
  constructor <;> simp_all [Alive]

theorem exec_frame {c : MonitorCall ListUser} (h : s.exec q c = some s') :
    s'.loop = s.loop ∧ s'.up = s.up ∧ s'.clientMutex = s.clientMutex ∧ s'.quit = s.quit ∧ s'.sent = s.sent ∧
      s'.pkt = s.pkt ∧ s'.todo = s.todo := by
  unfold exec at h
  split at h
  · cases h
    exact ⟨rfl, rfl, rfl, rfl, rfl, rfl, rfl⟩
  · cases h

theorem Calls.tail (h : s.Calls) (ht : s.todo = o :: rest) (hu : s'.up = s.up) (ht' : s'.todo = rest) : s'.Calls := by
  unfold Calls at h ⊢
  rw [ht] at h
  rw [hu, ht']
  exact (List.suffix_cons o rest).trans h

/-- The operations on the threads of the loops and on `client_list_mutex`. -/
def loopOps : List JavaOp :=
  [.createLoop .main, .createLoop .bc, .joinLoop .main, .joinLoop .bc, .clientMutexDestroy]

theorem loops_frame (h : s.loop l ≠ .absent ↔ s.Alive (.createLoop l) (.joinLoop l)) (hl : s'.loop l = s.loop l)
    (hu : s'.up = s.up) (ht : s.todo = o :: rest) (ht' : s'.todo = rest) (ho : o ≠ .createLoop l ∧ o ≠ .joinLoop l) :
    s'.loop l ≠ .absent ↔ s'.Alive (.createLoop l) (.joinLoop l) := by
  rw [hl, h]
  unfold Alive
  rw [hu, ht, ht']
  simp [ho.1.symm, ho.2.symm]

theorem ClientMutex.frame (h : s.ClientMutex) (hl : s'.loop .main = s.loop .main) (hcm : s'.clientMutex = s.clientMutex)
    (hu : s'.up = s.up) (ht : .clientMutexDestroy ∈ s'.todo ↔ .clientMutexDestroy ∈ s.todo) : s'.ClientMutex := by
  unfold ClientMutex at *
  rw [hl, hcm, hu, ht]
  exact h

/-- An operation on a list, and `initListHead`. -/
theorem Inv.onList (h : Inv s) (ht : s.todo = o :: rest) (hs : ∀ q, PktInv { s' with todo := rest } q)
    (hl : s'.loop = s.loop) (hu : s'.up = s.up) (hcm : s'.clientMutex = s.clientMutex) (hq : s'.quit = s.quit)
    (hf : s'.failed = s.failed) (ho : o ≠ .setQuit) (ho' : o ∉ loopOps) : Inv { s' with todo := rest } where
  calls := h.calls.tail ht hu rfl
  quits := by
    intro hup hne hn
    refine hq.trans (h.quits (hu.symm.trans hup) (by simp [ht]) ?_)
    simpa [ht, ho.symm] using hn
  pkts := hs
  loops := by
    intro l
    refine loops_frame (h.loops l) (congrFun hl l) hu ht rfl ⟨?_, ?_⟩
    · rintro rfl
      exact ho' (by cases l <;> decide)
    · rintro rfl
      exact ho' (by cases l <;> decide)
  clients := by
    refine h.clients.frame (congrFun hl _) hcm hu ?_
    have hne : JavaOp.clientMutexDestroy ≠ o := by
      rintro rfl
      exact ho' (by decide)
    simp [ht, hne]
  fine := hf.trans h.fine

/-- A call on the monitor of a list. -/
theorem Inv.exec (h : Inv s) (ht : s.todo = o :: rest) {c : MonitorCall ListUser} (hs : s.exec q c = some s')
    (ho : o ∈ opsOf q) (hp : PktInv { s' with todo := rest } q ∧ s'.failed = s.failed) :
    Inv { s' with todo := rest } := by
  obtain ⟨hl, hu, hcm, hq, -⟩ := exec_frame hs
  have hothers : ∀ q', PktInv { s' with todo := rest } q' := by
    intro q'
    by_cases hne : q' = q
    · subst hne
      exact hp.1
    · refine (h.pkts q').other hne ht ?_ hs
      intro hm
      simp only [opsOf, List.mem_cons, List.not_mem_nil, or_false] at ho hm
      rcases ho with rfl | rfl | rfl | rfl | rfl | rfl | rfl | rfl | rfl <;> simp_all
  refine h.onList ht hothers hl hu hcm hq hp.2 ?_ ?_
  · rintro rfl
    simp [opsOf] at ho
  · intro hm
    simp only [loopOps, opsOf, List.mem_cons, List.not_mem_nil, or_false] at ho hm
    rcases ho with rfl | rfl | rfl | rfl | rfl | rfl | rfl | rfl | rfl <;> simp at hm

/-- What happens to one thread leaves the others' lists as they are. -/
theorem PktInv.setOther (h : PktInv s q) {q' : PktList} (hne : q ≠ q') (ht : s.todo = o :: rest) (ho : o ∉ opsOf q)
    (pc : PktPc) (f : Bool) : PktInv { s.setPkt q' pc with todo := rest, failed := f } q :=
  h.pops ht ho rfl (Function.update_of_ne hne ..) rfl rfl rfl

/-- The steps that leave the lists and what is to come for them as they are. -/
theorem Inv.onLoop (h : Inv s) (hm : s'.mon = s.mon) (hp : s'.pkt = s.pkt) (hq : s'.quit = s.quit) (hu : s'.up = s.up)
    (ht : s.todo = o :: rest) (ht' : s'.todo = rest) (ho : ∀ q, o ∉ opsOf q) (hne : o ≠ .setQuit)
    (hl : ∀ l, s'.loop l ≠ .absent ↔ s'.Alive (.createLoop l) (.joinLoop l)) (hc : s'.ClientMutex)
    (hf : s'.failed = s.failed) : Inv s' where
  calls := h.calls.tail ht hu ht'
  quits := by
    intro hup hne' hn
    refine hq.trans (h.quits (hu.symm.trans hup) (by simp [ht]) ?_)
    rw [ht'] at hn
    simpa [ht, hne.symm] using hn
  pkts q := (h.pkts q).pops ht (ho q) (congrFun hm q) (congrFun hp q) hq hu ht'
  loops := hl
  clients := hc
  fine := hf.trans h.fine

/-- **Every operation of Java is defined where it is run, and keeps the invariant.** -/
theorem Inv.op (h : Inv s) (ht : s.todo = o :: rest) (hs : s.op o = some s') : Inv { s' with todo := rest } := by
  have hm : o ∈ s.todo := by simp [ht]
  have ho := h.calls.head ht
  cases o with
  | mutexInit q => exact h.exec ht hs (by simp [opsOf]) ((h.pkts q).mutexInit h.calls ht hs)
  | condInit q => exact h.exec ht hs (by simp [opsOf]) ((h.pkts q).condInit h.calls ht hs)
  | lock q => exact h.exec ht hs (by simp [opsOf]) ((h.pkts q).lock h.calls ht hs)
  | signal q => exact h.exec ht hs (by simp [opsOf]) ((h.pkts q).signal h.calls ht hs)
  | unlock q => exact h.exec ht hs (by simp [opsOf]) ((h.pkts q).unlock h.calls ht hs)
  | mutexDestroy q => exact h.exec ht hs (by simp [opsOf]) ((h.pkts q).mutexDestroy h.calls ht hs)
  | condDestroy q =>
    have hd : s.up = false := by
      refine h.calls.down ?_ hm
      cases q <;> decide
    have hg : .setQuit ∉ s.todo := by
      refine h.calls.gone ht ?_ ?_ <;> cases q <;> decide
    have hquit := h.quits hd (List.ne_nil_of_mem hm) hg
    exact h.exec ht hs (by simp [opsOf]) ((h.pkts q).condDestroy h.calls ht hquit hs)
  | initListHead q =>
    cases hs
    exact h.onList ht (fun q' => (h.pkts q').pops ht (by simp [opsOf]) rfl rfl rfl rfl rfl) rfl rfl rfl rfl rfl
      (by simp) (by simp [loopOps])
  | createPkt q =>
    cases hs
    have hp := (h.pkts q).createPkt h.calls ht
    refine h.onList ht (fun q' => ?_) rfl rfl rfl rfl hp.2 (by simp) (by simp [loopOps])
    by_cases hne : q' = q
    · subst hne
      exact hp.1
    · exact (h.pkts q').setOther hne ht (by simp [opsOf, Ne.symm hne]) ..
  | joinPkt q =>
    obtain ⟨hp, rfl⟩ := guard_some hs
    refine h.onList ht (fun q' => ?_) rfl rfl rfl rfl rfl (by simp) (by simp [loopOps])
    by_cases hne : q' = q
    · subst hne
      exact (h.pkts q').joinPkt h.calls ht hp
    · exact (h.pkts q').setOther hne ht (by simp [opsOf, Ne.symm hne]) ..
  | setQuit =>
    cases hs
    exact {
      calls := h.calls.tail ht rfl rfl
      quits := fun _ _ _ => rfl
      pkts := fun q => (h.pkts q).setQuit h.calls ht
      loops := fun l => loops_frame (h.loops l) rfl rfl ht rfl (by simp)
      clients := h.clients.frame rfl rfl rfl (by simp [ht])
      fine := h.fine }
  | asyncSend l =>
    cases hs
    have hl : s.loop l ≠ .absent := by
      have hj : s.up = false ∧ .joinLoop l ∈ s.todo := by
        refine h.calls.exit_mem ?_ ?_ hm <;> cases l <;> decide
      exact (h.loops l).2 ((Alive.down hj.1).2 hj.2)
    exact h.onLoop rfl rfl rfl rfl ht rfl (by simp [opsOf]) (by simp)
      (fun l' => loops_frame (h.loops l') rfl rfl ht rfl (by simp)) (h.clients.frame rfl rfl rfl (by simp [ht]))
      (by simp [ServerThreads.asyncSend, hl])
  | clientMutexDestroy =>
    cases hs
    have hup : s.up = false := h.calls.down (by decide) hm
    have hj : .joinLoop .main ∉ s.todo := h.calls.gone ht (by decide) (by decide)
    have hl : s.loop .main = .absent := by
      by_contra hn
      exact hj ((Alive.down hup).1 ((h.loops .main).1 hn))
    have hc : s.clientMutex = true := h.clients.2 (.inr (.inr ⟨hl, hup, hm⟩))
    refine h.onLoop rfl rfl rfl rfl ht rfl (by simp [opsOf]) (by simp)
      (fun l' => loops_frame (h.loops l') rfl rfl ht rfl (by simp)) ?_ (by simp [hc])
    simp [ClientMutex, hl, ho]
  | createLoop l =>
    cases hs
    have hup : s.up = true := by
      refine h.calls.starting ?_ hm
      cases l <;> decide
    have hl : s.loop l = .absent := by
      by_contra hn
      exact (Alive.up hup).1 ((h.loops l).1 hn) hm
    refine h.onLoop rfl rfl rfl rfl ht rfl (by simp [opsOf]) (by simp) (fun l' => ?_) ?_
      (by simp [ServerThreads.createLoop, hl])
    · by_cases hne : l' = l
      · subst hne
        simp [Alive, ServerThreads.createLoop, setLoop, hup, ho]
      · exact loops_frame (h.loops l') (Function.update_of_ne hne ..) rfl ht rfl (by simp [Ne.symm hne])
    · have hc := h.clients
      cases l with
      | main =>
        have : s.clientMutex = false := by
          by_contra hn
          have := hc.1 (by simpa using hn)
          simp [hl, hup] at this
        simp [ClientMutex, ServerThreads.createLoop, setLoop, this]
      | bc => exact hc.frame (by simp [ServerThreads.createLoop, setLoop]) rfl rfl (by simp [ht])
  | joinLoop l =>
    obtain ⟨hl, rfl⟩ := guard_some hs
    have hup : s.up = false := by
      refine h.calls.down ?_ hm
      cases l <;> decide
    refine h.onLoop rfl rfl rfl rfl ht rfl (by simp [opsOf]) (by simp) (fun l' => ?_) ?_ rfl
    · by_cases hne : l' = l
      · subst hne
        simp [Alive, setLoop, hup, ho]
      · exact loops_frame (h.loops l') (Function.update_of_ne hne ..) rfl ht rfl (by simp [Ne.symm hne])
    · have hc := h.clients
      cases l with
      | main =>
        have hd : .clientMutexDestroy ∈ s.todo := (h.calls.exit_mem (by decide) (by decide) hm).2
        have hr : JavaOp.clientMutexDestroy ∈ rest := by simpa [ht] using hd
        have hcm : s.clientMutex = true := hc.2 (.inr (.inl hl))
        simp [ClientMutex, setLoop, hcm, hup, hr]
      | bc => exact hc.frame (by simp [setLoop]) rfl rfl (by simp [ht])

/-- The steps that leave Java where it is: what happens to a list, to a loop, and to `client_list_mutex`. -/
theorem Inv.others (h : Inv s) (hu : s'.up = s.up) (ht : s'.todo = s.todo) (hq : s'.quit = s.quit)
    (hp : ∀ q, PktInv s' q) (hl : ∀ l, s'.loop l ≠ .absent ↔ s.loop l ≠ .absent) (hc : s'.ClientMutex)
    (hf : s'.failed = s.failed) : Inv s' where
  calls := h.calls.congr hu ht
  quits := by
    rw [hu, ht, hq]
    exact h.quits
  pkts := hp
  loops l := by rw [hl, alive_congr hu ht]; exact h.loops l
  clients := hc
  fine := hf.trans h.fine

theorem PktInv.same (h : PktInv s q) (hm : s'.mon q = s.mon q) (hp : s'.pkt q = s.pkt q) (hq : s'.quit = s.quit)
    (hu : s'.up = s.up) (ht : s'.todo = s.todo) : PktInv s' q :=
  h.frame hm hp hq hu fun _ _ => by rw [ht]

theorem Inv.pktStep (h : Inv s) (hs : s.pktStep q = some s') : Inv s' := by
  obtain ⟨hp, m, pc, -, -, rfl⟩ := (h.pkts q).pktStep h.calls h.quits hs
  refine h.others rfl rfl rfl (fun q' => ?_) (fun _ => Iff.rfl) (h.clients.frame rfl rfl rfl Iff.rfl) rfl
  by_cases hne : q' = q
  · subst hne
    exact hp
  · exact (h.pkts q').same (Function.update_of_ne hne ..) (Function.update_of_ne hne ..) rfl rfl rfl

/-- A blocked thread wakes by itself: it is still in `pthread_cond_wait`. -/
theorem PktInv.wake (h : PktInv s q) {m : Monitor ListUser} (hm : m = (s.mon q).call (.wake .pkt)) :
    PktInv { s with mon := Function.update s.mon q m } q := by
  subst hm
  obtain ⟨h1, h2, h3, h4, h5, h6, h7, h8, h9⟩ := h
  constructor <;> simp_all [Monitor.call, Alive]

theorem Inv.wake (h : Inv s) (hs : s.exec q (.wake .pkt) = some s') : Inv s' := by
  obtain ⟨-, rfl⟩ := exec_some hs trivial
  refine h.others rfl rfl rfl (fun q' => ?_) (fun _ => Iff.rfl) (h.clients.frame rfl rfl rfl Iff.rfl) rfl
  by_cases hne : q' = q
  · subst hne
    exact (h.pkts q').wake rfl
  · exact (h.pkts q').same (Function.update_of_ne hne ..) rfl rfl rfl rfl

/-- The callbacks of a loop that runs find `client_list_mutex`. -/
theorem Inv.useClients (h : Inv s) (hl : s.loop l = .running) : s.useClients l = s := by
  have hf : (l == .main && !s.clientMutex) = false := by
    cases l with
    | main => simp [h.clients.2 (.inl hl)]
    | bc => rfl
  rw [ServerThreads.useClients, hf, Bool.or_false]

/-- **Every step keeps the invariant.** -/
theorem Inv.step {a : ThreadStep} (h : Inv s) (hs : step s a = some s') : Inv s' := by
  cases a with
  | serverInit =>
    obtain ⟨⟨ht, hu⟩, rfl⟩ := guard_some hs
    refine ⟨?_, nofun, fun q => ?_, fun l => ?_, ?_, h.fine⟩
    · simp [Calls]
    · obtain ⟨h1, h2, h3, h4, h5, h6, h7, h8, h9⟩ := h.pkts q
      simp only [Alive, ht, hu] at h1 h2 h3 h4 h5 h6 h7 h8 h9
      cases q <;> constructor <;> simp_all [Alive, initServerThread]
    · have := h.loops l
      simp only [Alive, ht, hu] at this
      cases l <;> simp_all [Alive, initServerThread]
    · have := h.clients
      simp_all [ClientMutex]
  | serverExit =>
    obtain ⟨⟨ht, hu⟩, rfl⟩ := guard_some hs
    refine ⟨?_, fun _ _ hn => ?_, fun q => ?_, fun l => ?_, ?_, h.fine⟩
    · simp [Calls]
    · exact absurd (show JavaOp.setQuit ∈ exitServerThread by decide) hn
    · obtain ⟨h1, h2, h3, h4, h5, h6, h7, h8, h9⟩ := h.pkts q
      simp only [Alive, ht, hu] at h1 h2 h3 h4 h5 h6 h7 h8 h9
      cases q <;> constructor <;> simp_all [Alive, exitServerThread, exitAllThread]
    · have := h.loops l
      simp only [Alive, ht, hu] at this
      cases l <;> simp_all [Alive, exitServerThread, exitAllThread]
    · have hl : s.loop .main ≠ .absent := (h.loops .main).2 (by simp [Alive, hu, ht])
      have := h.clients
      simp_all [ClientMutex]
  | java =>
    simp only [ServerThreads.step] at hs
    split at hs
    · cases hs
    · obtain ⟨t, ht, rfl⟩ := Option.map_eq_some_iff.1 hs
      exact h.op ‹_› ht
  | pkt q => exact h.pktStep hs
  | wake q =>
    simp only [ServerThreads.step] at hs
    split at hs
    · exact h.wake hs
    · cases hs
  | entries q n =>
    obtain ⟨-, rfl⟩ := guard_some hs
    exact h.others rfl rfl rfl (fun q' => (h.pkts q').same rfl rfl rfl rfl rfl) (fun _ => Iff.rfl)
      (h.clients.frame rfl rfl rfl Iff.rfl) rfl
  | started l =>
    obtain ⟨hl, rfl⟩ := guard_some hs
    refine h.others rfl rfl rfl (fun q' => (h.pkts q').same rfl rfl rfl rfl rfl) (fun l' => ?_) ?_ rfl
    · by_cases hne : l' = l
      · subst hne
        simp [setLoop, hl]
      · simp [setLoop, hne]
    · cases l with
      | main => simp [ClientMutex, setLoop]
      | bc => exact h.clients.frame (by simp [setLoop]) (by simp) rfl Iff.rfl
  | turn l =>
    obtain ⟨hl, rfl⟩ := guard_some hs
    rw [h.useClients hl]
    exact h
  | asyncCb l =>
    obtain ⟨⟨hl, -⟩, rfl⟩ := guard_some hs
    rw [h.useClients hl]
    refine h.others rfl rfl rfl (fun q' => (h.pkts q').same rfl rfl rfl rfl rfl) (fun l' => ?_) ?_ rfl
    · by_cases hne : l' = l
      · subst hne
        simp [setLoop, hl]
      · simp [setLoop, hne]
    · have hc := h.clients
      cases l with
      | main => simp [ClientMutex, setLoop, hc.2 (.inl hl)]
      | bc => exact hc.frame (by simp [setLoop]) rfl rfl Iff.rfl

theorem inv_start : Inv start where
  calls := by simp [Calls, start]
  quits := by simp [start]
  pkts q := by constructor <;> simp [start, Alive, Monitor.dead]
  loops l := by simp [start, Alive]
  clients := by simp [ClientMutex, start]
  fine := rfl

theorem inv_reach (h : machine.Reach s) : Inv s :=
  h.invariant (fun _ hs => by subst hs; exact inv_start) fun _ _ _ hi hs => hi.step hs

/-- **The mutexes and the conditions are used while they are there**, at every point of every run, over any number of
`server_init` and `server_exit` calls: every call on them is defined, so none is used before it is initialised or after
it is destroyed, no condition is destroyed with a thread blocked on it, and no mutex with a thread in it.  A packet
thread that is blocked once `quit` is set has the signal still to come.  When `server_exit` has returned, the four
threads are gone and all of it is destroyed. -/
theorem no_use_after_destroy (h : machine.Reach s) :
    s.failed = false ∧
    (∀ q, s.quit = true → (s.mon q).blocked .pkt = true → .signal q ∈ s.todo) ∧
    (s.up = false → s.todo = [] → (∀ q, s.pkt q = .absent) ∧ (∀ l, s.loop l = .absent) ∧
      (∀ q, (s.mon q).mutexLive = false ∧ (s.mon q).condLive = false) ∧ s.clientMutex = false) := by
  have hi := inv_reach h
  refine ⟨hi.fine, fun q hq hb => (hi.pkts q).owed hb hq, fun hu ht => ?_⟩
  have hdead : ∀ i d, ¬ s.Alive i d := fun i d => by simp [Alive, hu, ht]
  have hloop : ∀ l, s.loop l = .absent := by
    intro l
    by_contra hn
    exact hdead _ _ ((hi.loops l).1 hn)
  refine ⟨fun q => ?_, hloop, fun q => ⟨?_, ?_⟩, ?_⟩
  · by_contra hn
    exact hdead _ _ ((hi.pkts q).created.1 hn)
  · by_contra hn
    exact hdead _ _ ((hi.pkts q).mutexLive.1 (by simpa using hn))
  · by_contra hn
    exact hdead _ _ ((hi.pkts q).condLive.1 (by simpa using hn))
  · by_contra hn
    have := hi.clients.1 (by simpa using hn)
    simp [hloop, hu, ht] at this

/-- The server comes up, `handle_snd_pkt` waits for a packet, and `exit_all_thread` sets `quit`. -/
def waitingRun : List ThreadStep :=
  .serverInit :: List.replicate 10 .java ++ [.started .bc, .started .main] ++ List.replicate 5 (.pkt .snd) ++
    [.serverExit, .java]

theorem no_use_after_destroy_waiting : ∃ s, machine.run start waitingRun = some s ∧
    (s.mon .snd).blocked .pkt = true ∧ .signal .snd ∈ s.todo ∧ s.failed = false := by
  obtain ⟨s, hs, hv⟩ := Option.map_eq_some_iff.1 (show (machine.run start waitingRun).map
    (fun s => ((s.mon .snd).blocked .pkt, s.quit)) = some (true, true) by decide)
  obtain ⟨hb, hq⟩ := Prod.mk.inj hv
  obtain ⟨hf, howed, -⟩ := no_use_after_destroy (Machine.Reach.run (.init rfl) hs)
  exact ⟨s, hs, hb, howed .snd hq hb, hf⟩

/-! ## The exit -/

/-- The next `ev_async_send` is to a loop that has not started its watcher. -/
def early (s : ServerThreads) : Bool :=
  match s.todo with
  | .asyncSend l :: _ => s.loop l == .starting
  | _ => false

/-- No `ev_async_send` comes before the watcher it is for. -/
def Timely (s : ServerThreads) (a : ThreadStep) : Prop := a = .java → s.early = false

/-- The steps of a call that Java is in. -/
def InCall (s : ServerThreads) (a : ThreadStep) : Prop := Timely s a ∧ a ≠ .serverInit ∧ a ≠ .serverExit

instance (s : ServerThreads) (a : ThreadStep) : Decidable (Timely s a) :=
  inferInstanceAs (Decidable (a = .java → s.early = false))

instance (s : ServerThreads) (a : ThreadStep) : Decidable (InCall s a) :=
  inferInstanceAs (Decidable (_ ∧ _ ∧ _))

/-- What the threads do of their own; not the callbacks of a loop, what other code does, or a wakeup for no reason. -/
def counts : ThreadStep → Bool
  | .java | .pkt _ | .started _ | .asyncCb _ => true
  | _ => false

/-- How far a packet thread is from its end once `quit` is set. -/
def pktRank : PktPc → Nat
  | .absent | .returned => 0
  | .loopTest | .unlockExit => 1
  | .exitTest | .unlock => 2
  | .quitTest => 3
  | .countTest => 4
  | .lock | .inWait => 5
  | .condWait => 6

def loopRank : LoopPc → Nat
  | .absent | .returned => 0
  | .running => 1
  | .starting => 2

/-- How much is left of the call. -/
def rank (s : ServerThreads) : Nat :=
  3 * s.todo.length + (pktRank (s.pkt .snd) + pktRank (s.pkt .rcv)) + (loopRank (s.loop .main) + loopRank (s.loop .bc))

/-- A loop that was sent its `ev_async` and is not joined has it, or has returned. -/
def Told (s : ServerThreads) : Prop :=
  ∀ l, s.up = false → .asyncSend l ∉ s.todo → .joinLoop l ∈ s.todo →
    s.loop l = .returned ∨ s.loop l = .running ∧ s.sent l = true

theorem Told.frame (h : s.Told) (hu : s'.up = s.up) (hl : s'.loop = s.loop) (hs : s'.sent = s.sent)
    (ha : ∀ l, .asyncSend l ∈ s'.todo ↔ .asyncSend l ∈ s.todo)
    (hj : ∀ l, .joinLoop l ∈ s'.todo → .joinLoop l ∈ s.todo) : s'.Told := by
  intro l hup hn hm
  rw [hl, hs]
  rw [hu] at hup
  rw [ha] at hn
  exact h l hup hn (hj l hm)

theorem Told.op (h : s.Told) (hi : Inv s) (ht : s.todo = o :: rest) (he : s.early = false) (hs : s.op o = some s') :
    Told { s' with todo := rest } := by
  have hm : o ∈ s.todo := by simp [ht]
  have ho := hi.calls.head ht
  cases o with
  | mutexInit q | condInit q | lock q | signal q | unlock q | condDestroy q | mutexDestroy q =>
    obtain ⟨hl, hu, -, -, hsent, -⟩ := exec_frame hs
    exact h.frame hu hl hsent (by simp [ht]) (by simp [ht])
  | initListHead q | createPkt q | setQuit | clientMutexDestroy =>
    cases hs
    exact h.frame rfl rfl rfl (by simp [ht]) (by simp [ht])
  | joinPkt q =>
    obtain ⟨-, rfl⟩ := guard_some hs
    exact h.frame rfl rfl rfl (by simp [ht]) (by simp [ht])
  | createLoop l =>
    cases hs
    have hup : s.up = true := by
      refine hi.calls.starting ?_ hm
      cases l <;> decide
    intro l' hup'
    rw [show s.up = false from hup'] at hup
    cases hup
  | asyncSend l =>
    cases hs
    intro l' hup hn hj
    have hdown : s.up = false := hup
    have hjoin : JavaOp.joinLoop l' ∈ s.todo := by simp [ht, show _ ∈ rest from hj]
    by_cases hne : l' = l
    · subst hne
      have hl : s.loop l' ≠ .absent := (hi.loops l').2 ((Alive.down hdown).2 hjoin)
      have hst : s.loop l' ≠ .starting := by simpa [early, ht] using he
      cases hl' : s.loop l' with
      | absent => exact absurd hl' hl
      | starting => exact absurd hl' hst
      | returned => exact .inl hl'
      | running => exact .inr ⟨hl', by simp [ServerThreads.asyncSend]⟩
    · have := h l' hdown (by simp [ht, hne, show _ ∉ rest from hn]) hjoin
      simpa [ServerThreads.asyncSend, hne] using this
  | joinLoop l =>
    obtain ⟨-, rfl⟩ := guard_some hs
    intro l' hup hn hj
    by_cases hne : l' = l
    · subst hne
      exact absurd hj ho
    · have := h l' hup (by simp [ht, show _ ∉ rest from hn]) (by simp [ht, show _ ∈ rest from hj])
      simpa [setLoop, hne] using this

theorem Told.step {a : ThreadStep} (h : s.Told) (hi : Inv s) (hok : Timely s a) (hs : step s a = some s') :
    s'.Told := by
  cases a with
  | serverInit =>
    obtain ⟨-, rfl⟩ := guard_some hs
    exact fun _ hup => by cases hup
  | serverExit =>
    obtain ⟨-, rfl⟩ := guard_some hs
    intro l _ hn
    exact absurd (show JavaOp.asyncSend l ∈ exitServerThread by cases l <;> decide) hn
  | java =>
    simp only [ServerThreads.step] at hs
    split at hs
    · cases hs
    · obtain ⟨t, ht, rfl⟩ := Option.map_eq_some_iff.1 hs
      exact h.op hi ‹_› (hok rfl) ht
  | pkt q =>
    obtain ⟨-, m, pc, -, -, rfl⟩ := (hi.pkts q).pktStep hi.calls hi.quits hs
    exact h.frame rfl rfl rfl (fun _ => Iff.rfl) (fun _ => id)
  | wake q =>
    simp only [ServerThreads.step] at hs
    split at hs
    · obtain ⟨-, rfl⟩ := exec_some hs trivial
      exact h.frame rfl rfl rfl (fun _ => Iff.rfl) (fun _ => id)
    · cases hs
  | entries q n =>
    obtain ⟨-, rfl⟩ := guard_some hs
    exact h.frame rfl rfl rfl (fun _ => Iff.rfl) (fun _ => id)
  | started l =>
    obtain ⟨hl, rfl⟩ := guard_some hs
    intro l' hup hn hj
    have := h l' hup hn hj
    by_cases hne : l' = l
    · subst hne
      simp [hl] at this
    · simpa [setLoop, hne] using this
  | turn l =>
    obtain ⟨hl, rfl⟩ := guard_some hs
    rw [hi.useClients hl]
    exact h
  | asyncCb l =>
    obtain ⟨⟨hl, -⟩, rfl⟩ := guard_some hs
    rw [hi.useClients hl]
    intro l' hup hn hj
    by_cases hne : l' = l
    · subst hne
      exact .inl (by simp [setLoop])
    · simpa [setLoop, hne] using h l' hup hn hj

/-- Once `quit` is set every step takes a packet thread nearer to its end. -/
theorem pktStep_rank (hq : s.quit = true) (hs : s.pktStep q = some s') :
    s'.todo = s.todo ∧ s'.loop = s.loop ∧ s'.quit = s.quit ∧
      ∃ pc, s'.pkt = Function.update s.pkt q pc ∧ pktRank pc < pktRank (s.pkt q) := by
  have hexec : ∀ c pc, (s.exec q c).map (·.setPkt q pc) = some s' → pktRank pc < pktRank (s.pkt q) →
      s'.todo = s.todo ∧ s'.loop = s.loop ∧ s'.quit = s.quit ∧
        ∃ pc, s'.pkt = Function.update s.pkt q pc ∧ pktRank pc < pktRank (s.pkt q) := by
    intro c pc h hlt
    obtain ⟨t, ht, rfl⟩ := Option.map_eq_some_iff.1 h
    obtain ⟨hl, -, -, hquit, -, hp, htodo⟩ := exec_frame ht
    exact ⟨htodo, hl, hquit, pc, by simp [setPkt, hp], hlt⟩
  unfold ServerThreads.pktStep at hs
  cases hp : s.pkt q with
  | absent | returned => simp [hp] at hs
  | loopTest | quitTest | exitTest =>
    simp only [hp, hq, if_true] at hs
    cases hs
    exact ⟨rfl, rfl, rfl, _, rfl, by simp [pktRank]⟩
  | countTest =>
    simp only [hp] at hs
    cases hs
    refine ⟨rfl, rfl, rfl, _, rfl, ?_⟩
    split <;> simp [pktRank]
  | lock | condWait | inWait | unlock | unlockExit =>
    simp only [hp] at hs
    have := hexec _ _ hs (by simp [hp, pktRank])
    rwa [hp] at this

theorem rank_setPkt {pc : PktPc} (h : pktRank pc < pktRank (s.pkt q)) (ht : s'.todo = s.todo) (hl : s'.loop = s.loop)
    (hp : s'.pkt = Function.update s.pkt q pc) : s'.rank < s.rank := by
  unfold rank
  rw [ht, hl, hp]
  cases q <;> simp <;> omega

/-- An operation of Java takes off more than the thread it may create brings. -/
theorem rank_op (ht : s.todo = o :: rest) (hs : s.op o = some s') : rank { s' with todo := rest } < s.rank := by
  have hlen : s.todo.length = rest.length + 1 := by simp [ht]
  cases o with
  | mutexInit q | condInit q | lock q | signal q | unlock q | condDestroy q | mutexDestroy q =>
    obtain ⟨hl, -, -, -, -, hp, -⟩ := exec_frame hs
    simp only [rank, hl, hp, hlen]
    omega
  | initListHead q | setQuit | clientMutexDestroy | asyncSend l =>
    cases hs
    simp only [rank, hlen, ServerThreads.asyncSend]
    omega
  | createPkt q =>
    cases hs
    simp only [rank, hlen, ServerThreads.createPkt, setPkt]
    cases q <;> simp [pktRank] <;> omega
  | joinPkt q =>
    obtain ⟨-, rfl⟩ := guard_some hs
    simp only [rank, hlen, setPkt]
    cases q <;> simp [pktRank] <;> omega
  | createLoop l =>
    cases hs
    simp only [rank, hlen, ServerThreads.createLoop, setLoop]
    cases l <;> simp [loopRank] <;> omega
  | joinLoop l =>
    obtain ⟨-, rfl⟩ := guard_some hs
    simp only [rank, hlen, setLoop]
    cases l <;> simp [loopRank] <;> omega

/-- What the steps of a call keep once `quit` is set. -/
structure Exiting (s : ServerThreads) : Prop where
  inv : Inv s
  told : s.Told
  quit : s.quit = true

theorem quit_step {a : ThreadStep} (hq : s.quit = true) (hs : step s a = some s') : s'.quit = true := by
  cases a with
  | serverInit | serverExit | entries _ _ | started _ | turn _ | asyncCb _ =>
    obtain ⟨-, rfl⟩ := guard_some hs
    exact hq
  | pkt q => exact (pktStep_rank hq hs).2.2.1.trans hq
  | wake q =>
    simp only [ServerThreads.step] at hs
    split at hs
    · exact (exec_frame hs).2.2.2.1.trans hq
    · cases hs
  | java =>
    simp only [ServerThreads.step] at hs
    split at hs
    · cases hs
    · obtain ⟨t, ht, rfl⟩ := Option.map_eq_some_iff.1 hs
      rename_i o rest _
      cases o with
      | mutexInit q | condInit q | lock q | signal q | unlock q | condDestroy q | mutexDestroy q =>
        exact (exec_frame ht).2.2.2.1.trans hq
      | joinPkt _ | joinLoop _ =>
        obtain ⟨-, rfl⟩ := guard_some ht
        exact hq
      | setQuit =>
        cases ht
        rfl
      | _ =>
        cases ht
        exact hq

theorem step_rank {a : ThreadStep} (h : Exiting s) (hok : InCall s a) (hs : step s a = some s') :
    s'.rank + (if counts a = true then 1 else 0) ≤ s.rank := by
  cases a with
  | serverInit => exact absurd rfl hok.2.1
  | serverExit => exact absurd rfl hok.2.2
  | java =>
    simp only [ServerThreads.step] at hs
    split at hs
    · cases hs
    · obtain ⟨t, ht, rfl⟩ := Option.map_eq_some_iff.1 hs
      exact rank_op ‹_› ht
  | pkt q =>
    obtain ⟨ht, hl, -, pc, hp, hlt⟩ := pktStep_rank h.quit hs
    exact rank_setPkt hlt ht hl hp
  | wake q =>
    simp only [ServerThreads.step] at hs
    split at hs
    · obtain ⟨-, rfl⟩ := exec_some hs trivial
      exact Nat.le_refl _
    · cases hs
  | entries q n =>
    obtain ⟨-, rfl⟩ := guard_some hs
    exact Nat.le_refl _
  | turn l =>
    obtain ⟨-, rfl⟩ := guard_some hs
    exact Nat.le_refl _
  | started l =>
    obtain ⟨hl, rfl⟩ := guard_some hs
    simp only [rank, counts, setLoop]
    cases l <;> simp only [Function.update_apply, reduceCtorEq, if_true, if_false, hl, loopRank] <;> omega
  | asyncCb l =>
    obtain ⟨⟨hl, -⟩, rfl⟩ := guard_some hs
    simp only [rank, counts, setLoop, useClients]
    cases l <;> simp only [Function.update_apply, reduceCtorEq, if_true, if_false, hl, loopRank] <;> omega

/-- **Once `quit` is set the steps of a call take it nearer to its end**; no other step takes it farther. -/
theorem descends : Machine.Descends machine InCall counts Exiting rank where
  keeps s a s' h hok hs := ⟨h.inv.step hs, h.told.step h.inv hok.1 hs, quit_step h.quit hs⟩
  rank_le s a s' h hok hs := Nat.le_of_add_right_le (step_rank h hok hs)
  rank_lt s a s' h hok hc hs := by
    have := step_rank h hok hs
    rw [if_pos hc] at this
    exact this

/-- A packet thread that is not blocked and finds its mutex free goes on. -/
theorem pkt_goes (hp : s.pkt q ≠ .absent) (hp' : s.pkt q ≠ .returned)
    (hfree : (s.pkt q).holds = false → (s.mon q).holder = none) (hb : (s.mon q).blocked .pkt = false) :
    ∃ s', s.pktStep q = some s' := by
  rw [← Option.isSome_iff_exists]
  unfold ServerThreads.pktStep
  cases hpc : s.pkt q with
  | absent => exact absurd hpc hp
  | returned => exact absurd hpc hp'
  | lock | inWait =>
    have hn := hfree (by rw [hpc]; rfl)
    simp [ServerThreads.exec, Monitor.ready, hn, hb]
  | condWait | unlock | unlockExit => simp [ServerThreads.exec, Monitor.ready]
  | _ => simp

/-- Java's next operation, when it returns. -/
theorem java_goes (ht : s.todo = o :: rest) (he : s.early = false) (ho : (s.op o).isSome = true) :
    ∃ a s', counts a = true ∧ InCall s a ∧ machine.step s a = some s' := by
  obtain ⟨t, hop⟩ := Option.isSome_iff_exists.1 ho
  refine ⟨.java, { t with todo := rest }, rfl, ⟨fun _ => he, by simp, by simp⟩, ?_⟩
  simp [machine, ServerThreads.step, ht, hop]

/-- The thread that Java waits for, or that has the mutex it waits for, goes on. -/
theorem Exiting.pkt_goes (h : Exiting s) (hp : s.pkt q ≠ .absent) (hp' : s.pkt q ≠ .returned)
    (hj : (s.mon q).holder ≠ some .java) (hb : (s.mon q).blocked .pkt = false) :
    ∃ a s', counts a = true ∧ InCall s a ∧ machine.step s a = some s' := by
  have hfree : (s.pkt q).holds = false → (s.mon q).holder = none := by
    intro hn
    cases hh : (s.mon q).holder with
    | none => rfl
    | some u =>
      cases u with
      | java => exact absurd hh hj
      | pkt =>
        have := ((h.inv.pkts q).pktHolds).1 hh
        rw [hn] at this
        cases this
  obtain ⟨s', hs⟩ := ServerThreads.pkt_goes hp hp' hfree hb
  exact ⟨.pkt q, s', rfl, ⟨by simp [Timely], by simp, by simp⟩, hs⟩

/-- The loop that Java waits for starts, or comes to its callback. -/
theorem Exiting.loop_goes (h : Exiting s) (ht : s.todo = .joinLoop l :: rest) :
    ∃ a s', counts a = true ∧ InCall s a ∧ machine.step s a = some s' := by
  have hm : .joinLoop l ∈ s.todo := by simp [ht]
  have hup : s.up = false := by
    refine h.inv.calls.down ?_ hm
    cases l <;> decide
  have hg : .asyncSend l ∉ s.todo := by
    refine h.inv.calls.gone ht ?_ ?_ <;> cases l <;> decide
  rcases h.told l hup hg hm with hl | ⟨hl, hsent⟩
  · exact java_goes ht (by simp [early, ht]) (by simp [ServerThreads.op, hl])
  · exact ⟨.asyncCb l, _, rfl, ⟨by simp [Timely], by simp, by simp⟩, if_pos ⟨hl, hsent⟩⟩

/-- **Until the call is over something can be done for it.** -/
theorem offers : Machine.Offers machine InCall counts Exiting fun s => s.todo = [] := by
  intro s h hne
  obtain ⟨o, rest, ht⟩ := List.exists_cons_of_ne_nil hne
  have hm : o ∈ s.todo := by simp [ht]
  cases o with
  | lock q =>
    cases hh : (s.mon q).holder with
    | none =>
      exact java_goes ht (by simp [early, ht]) (by simp [ServerThreads.op, ServerThreads.exec, Monitor.ready, hh])
    | some u =>
      cases u with
      | java => exact absurd hm ((h.inv.pkts q).javaHolds.1 hh).1
      | pkt =>
        have hholds := (h.inv.pkts q).pktHolds.1 hh
        have hne' : ∀ pc : PktPc, pc.holds = false → s.pkt q ≠ pc := by
          rintro pc hpc rfl
          rw [hpc] at hholds
          cases hholds
        refine h.pkt_goes (hne' _ rfl) (hne' _ rfl) (by simp [hh]) ?_
        by_contra hb
        exact hne' .inWait rfl ((h.inv.pkts q).inWait (by simpa using hb))
  | joinPkt q =>
    by_cases hr : s.pkt q = .returned
    · exact java_goes ht (by simp [early, ht]) (by simp [ServerThreads.op, hr])
    · have hup : s.up = false := by
        refine h.inv.calls.down ?_ hm
        cases q <;> decide
      have hu : .unlock q ∉ s.todo := by
        refine h.inv.calls.gone ht ?_ ?_ <;> cases q <;> decide
      have hg : .signal q ∉ s.todo := by
        refine h.inv.calls.gone ht ?_ ?_ <;> cases q <;> decide
      refine h.pkt_goes ((h.inv.pkts q).created.2 ((Alive.down hup).2 hm)) hr ?_ ?_
      · exact fun hj => hu ((h.inv.pkts q).javaHolds.1 hj).2
      · by_contra hb
        exact hg ((h.inv.pkts q).owed (by simpa using hb) h.quit)
  | joinLoop l => exact h.loop_goes ht
  | asyncSend l =>
    by_cases hl : s.loop l = .starting
    · exact ⟨.started l, _, rfl, ⟨by simp [Timely], by simp, by simp⟩, if_pos hl⟩
    · exact java_goes ht (by simp [early, ht, hl]) (by simp [ServerThreads.op])
  | _ => exact java_goes ht (by simp [early, ht]) (by simp [ServerThreads.op, ServerThreads.exec, Monitor.ready])

theorem exiting_reach (h : machine.ReachWhen Timely s) (hq : s.quit = true) : Exiting s := by
  have hi : Inv s ∧ s.Told := by
    refine h.invariant (I := fun s => Inv s ∧ s.Told) ?_ fun s a s' hi hok hs => ?_
    · rintro _ rfl
      exact ⟨inv_start, by simp [Told, start]⟩
    · exact ⟨hi.1.step hs, hi.2.step hi.1 hok hs⟩
  exact ⟨hi.1, hi.2, hq⟩

/-- **`server_exit` comes to its end.**  Once `quit` is set, however the four threads are interleaved and whatever they
were at, they and Java take at most 3 steps for each operation that Java has left and 16 more, beside the callbacks of
the loops; and a thread that has nothing left to do is not there unless all of `server_exit` is done.  The one condition
is that no `ev_async_send` comes before the watcher it is for is started. -/
theorem server_exit_ends (h : machine.ReachWhen Timely s) (hq : s.quit = true) {as : List ThreadStep}
    (hr : machine.runWhen InCall s as = some s') :
    as.countP counts ≤ 3 * s.todo.length + 16 ∧
    (s'.todo ≠ [] → ∃ a t, counts a = true ∧ InCall s' a ∧ machine.step s' a = some t) ∧
    (∃ bs t, machine.runWhen InCall s' bs = some t ∧ t.todo = []) := by
  have he := exiting_reach h hq
  have he' := descends.runWhen he hr
  refine ⟨?_, offers s' he', ?_⟩
  · have hle := descends.countP_le he hr
    have hp : ∀ pc, pktRank pc ≤ 6 := by intro pc; cases pc <;> simp [pktRank]
    have hl : ∀ pc, loopRank pc ≤ 2 := by intro pc; cases pc <;> simp [loopRank]
    have := hp (s.pkt .snd)
    have := hp (s.pkt .rcv)
    have := hl (s.loop .main)
    have := hl (s.loop .bc)
    unfold rank at hle
    omega
  · obtain ⟨bs, t, hbs, ht, -⟩ := descends.exists_runWhen offers _ (Nat.le_refl _) he'
    exact ⟨bs, t, hbs, ht⟩

/-- The rest of `server_exit` after `waitingRun`. -/
def exitRun : List ThreadStep :=
  List.replicate 8 .java ++ List.replicate 5 (.pkt .snd) ++ [.java, .pkt .rcv] ++ List.replicate 4 .java ++
    [.asyncCb .main] ++ List.replicate 3 .java ++ [.asyncCb .bc, .java]

theorem server_exit_ends_waiting : ∃ s s', machine.runWhen Timely start waitingRun = some s ∧ s.todo.length = 17 ∧
    machine.runWhen InCall s exitRun = some s' ∧ s'.todo = [] ∧ exitRun.countP counts ≤ 3 * 17 + 16 := by
  obtain ⟨s, hs, hv⟩ := Option.map_eq_some_iff.1 (show (machine.runWhen Timely start waitingRun).map
    (fun s => (s.quit, s.todo.length, (machine.runWhen InCall s exitRun).map fun s' => s'.todo)) =
      some (true, 17, some []) by decide)
  simp only [Prod.mk.injEq] at hv
  obtain ⟨hq, hlen, hv⟩ := hv
  obtain ⟨s', hs', hend⟩ := Option.map_eq_some_iff.1 hv
  have hreach : machine.ReachWhen Timely s := Machine.ReachWhen.runWhen (.init rfl) hs
  have hcount := (server_exit_ends hreach hq hs').1
  rw [hlen] at hcount
  exact ⟨s, s', hs, hlen, hs', hend, hcount⟩

/-- A loop that was sent its `ev_async` before it had started its watcher, and has not got it since. -/
def Lost (s : ServerThreads) (l : LoopThread) : Prop :=
  s.up = false ∧ .joinLoop l ∈ s.todo ∧ .asyncSend l ∉ s.todo ∧
    (s.loop l = .starting ∨ s.loop l = .running ∧ s.sent l = false)

theorem Lost.op (h : s.Lost l) (hi : Inv s) (ht : s.todo = o :: rest) (hs : s.op o = some s') :
    Lost { s' with todo := rest } l := by
  obtain ⟨hup, hj, ha, hl⟩ := h
  have ha' : .asyncSend l ∉ rest := fun hn => ha (by simp [ht, hn])
  have hj' : o ≠ .joinLoop l → .joinLoop l ∈ rest := by
    intro hne
    simpa [ht, hne.symm] using hj
  cases o with
  | mutexInit q | condInit q | lock q | signal q | unlock q | condDestroy q | mutexDestroy q =>
    obtain ⟨hloop, hu, -, -, hsent, -⟩ := exec_frame hs
    exact ⟨hu.trans hup, hj' (by simp), ha', by simpa [hloop, hsent] using hl⟩
  | initListHead q | createPkt q | setQuit | clientMutexDestroy =>
    cases hs
    exact ⟨hup, hj' (by simp), ha', hl⟩
  | joinPkt q =>
    obtain ⟨-, rfl⟩ := guard_some hs
    exact ⟨hup, hj' (by simp), ha', hl⟩
  | createLoop l' =>
    have := hi.calls.starting (a := .createLoop l') (by cases l' <;> decide) (by simp [ht])
    rw [hup] at this
    cases this
  | asyncSend l' =>
    have hne : l ≠ l' := by
      rintro rfl
      exact ha (by simp [ht])
    cases hs
    exact ⟨hup, hj' (by simp), ha', by simpa [ServerThreads.asyncSend, hne] using hl⟩
  | joinLoop l' =>
    obtain ⟨hr, rfl⟩ := guard_some hs
    have hne : l ≠ l' := by
      rintro rfl
      simp [hr] at hl
    exact ⟨hup, hj' (by simp [Ne.symm hne]), ha', by simpa [setLoop, hne] using hl⟩

theorem Lost.step {a : ThreadStep} (h : s.Lost l) (hi : Inv s) (hs : step s a = some s') : s'.Lost l := by
  cases a with
  | serverInit | serverExit =>
    obtain ⟨⟨ht, -⟩, -⟩ := guard_some hs
    have hj := h.2.1
    simp [ht] at hj
  | java =>
    simp only [ServerThreads.step] at hs
    split at hs
    · cases hs
    · obtain ⟨t, ht, rfl⟩ := Option.map_eq_some_iff.1 hs
      exact h.op hi ‹_› ht
  | pkt q =>
    obtain ⟨-, m, pc, -, -, rfl⟩ := (hi.pkts q).pktStep hi.calls hi.quits hs
    exact h
  | wake q =>
    simp only [ServerThreads.step] at hs
    split at hs
    · obtain ⟨-, rfl⟩ := exec_some hs trivial
      exact h
    · cases hs
  | entries q n =>
    obtain ⟨-, rfl⟩ := guard_some hs
    exact h
  | started l' =>
    obtain ⟨hl, rfl⟩ := guard_some hs
    refine ⟨h.1, h.2.1, h.2.2.1, ?_⟩
    by_cases hne : l = l'
    · subst hne
      simp [setLoop]
    · simpa [setLoop, hne] using h.2.2.2
  | turn l' =>
    obtain ⟨hl, rfl⟩ := guard_some hs
    rw [hi.useClients hl]
    exact h
  | asyncCb l' =>
    obtain ⟨⟨hl, hsent⟩, rfl⟩ := guard_some hs
    rw [hi.useClients hl]
    refine ⟨h.1, h.2.1, h.2.2.1, ?_⟩
    have hne : l ≠ l' := by
      rintro rfl
      simpa [hl, hsent] using h.2.2.2
    simpa [setLoop, hne] using h.2.2.2

/-- **An `ev_async_send` before its watcher is started is forgotten**, and `server_exit` waits for that loop for
ever. -/
theorem early_send_hangs (h : machine.Reach s) (ht : s.todo = .asyncSend l :: rest) (hl : s.loop l = .starting)
    {s₁ : ServerThreads} (hs : machine.step s .java = some s₁) (ha : machine.After s₁ s') : .joinLoop l ∈ s'.todo := by
  have hi := inv_reach h
  have hm : .asyncSend l ∈ s.todo := by simp [ht]
  have hj : s.up = false ∧ .joinLoop l ∈ s.todo := by
    refine hi.calls.exit_mem ?_ ?_ hm <;> cases l <;> decide
  have hlost : s₁.Lost l := by
    simp only [machine, ServerThreads.step, ht, ServerThreads.op, Option.map_some] at hs
    cases hs
    refine ⟨hj.1, ?_, hi.calls.head ht, .inl hl⟩
    simpa [ht] using hj.2
  obtain ⟨as, hr⟩ := ha
  have hreach := h.step hs
  clear hs ht hl h hi hm hj
  induction as generalizing s₁ with
  | nil =>
    cases hr
    exact hlost.2.1
  | cons a as ih =>
    rw [Machine.run_cons] at hr
    obtain ⟨t, ht, hr⟩ := Option.bind_eq_some_iff.1 hr
    exact ih (hlost.step (inv_reach hreach) ht) hr (hreach.step ht)

end ServerThreads
end DevMgr
