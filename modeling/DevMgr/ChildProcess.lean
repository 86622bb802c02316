import DevMgr.Ledger
import DevMgr.Machine
/-!
# ChildProcess — the pipes and the children of the commands

`AdbCmd::Execute` for any number of command objects, in threads of one process: `CreateChildProcess` makes two pipes and
forks, with an error path from each of the three calls; the child closes the parent's two ends and puts its own on 0, 1
and 2; the parent closes the child's ends, reads until `read` returns nothing, and `Cleanup` closes its ends and waits.

A descriptor is known by what it stands for: an end of a pipe of the call that made it, the calls being numbered, or
something else.  A child has a copy of the descriptors there are at its `fork`, those of other calls among them: nothing
is marked to be closed by `execl`.  It keeps them until it ends, and so do the processes that it forks itself, which may
outlive it, and the children of `system`, that of `AdbCmdGetApkList` and that of `MtpDeviceMon`.  0, 1 and 2 are open
throughout.

`outOpen` and `outClosed` record of each call how many forks of this process there had been when the pipe for the output
was made and when its write end was closed, and `forkNo` the place of its own fork.  `failed` records a `close`, of the
parent or the child, of a descriptor that is not the end it was.
-/
namespace DevMgr

open Machines Ledgers

inductive FdFile where
  | other
  | inRd (call : Nat)
  | inWr (call : Nat)
  | outRd (call : Nat)
  | outWr (call : Nat)
  deriving DecidableEq, Repr

/-- The four descriptors of a call: `fdIn` and `fdOut`. -/
structure CallFds where
  call : Nat
  inRd : Nat
  inWr : Nat
  outRd : Nat
  outWr : Nat
  deriving DecidableEq, Repr

/-- Where `Execute` is: not in it, after the first `pipe`, before `fork`, before the two closes of the parent, in the
read loop, before the closes and the `waitpid` of `Cleanup`, or before the closes from `err3` and from `err2` on. -/
inductive ExecPc where
  | idle
  | piped (call inRd inWr : Nat)
  | forking (x : CallFds)
  | closingIn (x : CallFds)
  | closingOut (x : CallFds)
  | reading (x : CallFds)
  | closingRd (x : CallFds)
  | closingWr (x : CallFds)
  | waiting (x : CallFds)
  | err3 (x : CallFds)
  | err3Wr (x : CallFds)
  | err2 (call inRd inWr : Nat)
  | err2Wr (call inWr : Nat)
  deriving DecidableEq, Repr

structure ExecChild where
  fds : CallFds
  table : Nat → Option FdFile
  ready : Bool
  exited : Bool

/-- A process that no command waits for: a child of `system`, or what a child or another of these has forked.  `forkNo`
is the fork of this process that it descends from. -/
structure Stray where
  table : Nat → Option FdFile
  forkNo : Nat

structure ExecState (Cmd : Type) where
  fds : Nat → Option FdFile
  others : Nat → Option FdFile
  pc : Cmd → ExecPc
  child : Nat → Option ExecChild
  strays : List Stray
  calls : Nat
  forks : Nat
  forkNo : Nat → Nat
  outOpen : Nat → Option Nat
  outClosed : Nat → Option Nat
  failed : Bool

/-- A `pipe` that fails gives nothing. -/
inductive ExecStep (Cmd : Type) where
  | pipeIn (c : Cmd) (fds : Option (Nat × Nat))
  | pipeOut (c : Cmd) (fds : Option (Nat × Nat))
  | fork (c : Cmd) (ok : Bool)
  | close (c : Cmd)
  | read (c : Cmd)
  | readEnd (c : Cmd)
  | wait (c : Cmd)
  | childExec (call : Nat)
  | childFork (call : Nat)
  | childExit (call : Nat)
  | system
  | strayFork (k : Nat)
  | strayExit (k : Nat)
  | otherOpen (fd : Nat)
  | otherClose (fd : Nat)

def dup2 (table : Nat → Option FdFile) (oldfd newfd : Nat) : Nat → Option FdFile :=
  match table oldfd with
  | none => table
  | some f => Function.update table newfd (some f)

/-- What the child does before `execl`. -/
def childStdio (table : Nat → Option FdFile) (x : CallFds) : Nat → Option FdFile :=
  let table := Function.update table x.inWr none
  let table := Function.update table x.outRd none
  let table := dup2 table x.inRd 0
  let table := dup2 table x.outWr 1
  dup2 table x.outWr 2

/-- The two closes of the child are of the ends that are the parent's. -/
def ExecChild.closesOwn (ch : ExecChild) : Bool :=
  ch.table ch.fds.inWr == some (.inWr ch.fds.call) && ch.table ch.fds.outRd == some (.outRd ch.fds.call)

namespace ExecPc

/-- The next `close` of the parent. -/
def closes : ExecPc → Option (Nat × FdFile × ExecPc)
  | .closingIn x => some (x.inRd, .inRd x.call, .closingOut x)
  | .closingOut x => some (x.outWr, .outWr x.call, .reading x)
  | .closingRd x => some (x.outRd, .outRd x.call, .closingWr x)
  | .closingWr x => some (x.inWr, .inWr x.call, .waiting x)
  | .err3 x => some (x.outRd, .outRd x.call, .err3Wr x)
  | .err3Wr x => some (x.outWr, .outWr x.call, .err2 x.call x.inRd x.inWr)
  | .err2 call inRd inWr => some (inRd, .inRd call, .err2Wr call inWr)
  | .err2Wr call inWr => some (inWr, .inWr call, .idle)
  | _ => none

/-- The descriptors that the call has open in the parent. -/
def held : ExecPc → List (Nat × FdFile)
  | .idle | .waiting _ => []
  | .piped call inRd inWr | .err2 call inRd inWr => [(inRd, .inRd call), (inWr, .inWr call)]
  | .err2Wr call inWr => [(inWr, .inWr call)]
  | .forking x | .closingIn x | .err3 x =>
    [(x.outRd, .outRd x.call), (x.outWr, .outWr x.call), (x.inRd, .inRd x.call), (x.inWr, .inWr x.call)]
  | .err3Wr x => [(x.outWr, .outWr x.call), (x.inRd, .inRd x.call), (x.inWr, .inWr x.call)]
  | .closingOut x => [(x.outRd, .outRd x.call), (x.outWr, .outWr x.call), (x.inWr, .inWr x.call)]
  | .reading x | .closingRd x => [(x.outRd, .outRd x.call), (x.inWr, .inWr x.call)]
  | .closingWr x => [(x.inWr, .inWr x.call)]

/-- The number of the call. -/
def call? : ExecPc → Option Nat
  | .idle => none
  | .piped call _ _ | .err2 call _ _ | .err2Wr call _ => some call
  | .forking x | .closingIn x | .closingOut x | .reading x | .closingRd x | .closingWr x | .waiting x | .err3 x
  | .err3Wr x => some x.call

/-- The call whose child is not waited for yet. -/
def forked : ExecPc → Option CallFds
  | .closingIn x | .closingOut x | .reading x | .closingRd x | .closingWr x | .waiting x => some x
  | _ => none

/-- The call whose output pipe is still open for writing. -/
def writes : ExecPc → Option Nat
  | .forking x | .closingIn x | .closingOut x | .err3 x | .err3Wr x => some x.call
  | _ => none

/-- The call whose output pipe is not made yet. -/
def unopened : ExecPc → Option Nat
  | .piped call _ _ => some call
  | _ => none

end ExecPc

def FdFile.call? : FdFile → Option Nat
  | .other => none
  | .inRd call | .inWr call | .outRd call | .outWr call => some call

namespace ExecState

variable {Cmd : Type} [DecidableEq Cmd]

def setPc (s : ExecState Cmd) (c : Cmd) (pc : ExecPc) : ExecState Cmd := { s with pc := Function.update s.pc c pc }

/-- A `pipe` that returns two free descriptors. -/
def openPipe (s : ExecState Cmd) (rd wr : Nat) (frd fwr : FdFile) : Option (ExecState Cmd) :=
  if s.fds rd = none ∧ s.fds wr = none ∧ rd ≠ wr then
    some { s with fds := Function.update (Function.update s.fds rd (some frd)) wr (some fwr) }
  else none

/-- A `close` of the parent, which may be that of the write end for the output. -/
def closeFd (s : ExecState Cmd) (fd : Nat) (f : FdFile) : ExecState Cmd :=
  { s with
    fds := Function.update s.fds fd none
    failed := s.failed || s.fds fd != some f
    outClosed := match f with
      | .outWr call => Function.update s.outClosed call (some s.forks)
      | _ => s.outClosed }

def step (s : ExecState Cmd) : ExecStep Cmd → Option (ExecState Cmd)
  | .pipeIn c fds => match s.pc c, fds with
    | .idle, none => some s
    | .idle, some (rd, wr) => (s.openPipe rd wr (.inRd s.calls) (.inWr s.calls)).map fun t =>
      { t.setPc c (.piped s.calls rd wr) with calls := s.calls + 1 }
    | _, _ => none
  | .pipeOut c fds => match s.pc c, fds with
    | .piped call inRd inWr, none => some (s.setPc c (.err2 call inRd inWr))
    | .piped call inRd inWr, some (rd, wr) => (s.openPipe rd wr (.outRd call) (.outWr call)).map fun t =>
      { t.setPc c (.forking ⟨call, inRd, inWr, rd, wr⟩) with outOpen := Function.update s.outOpen call (some s.forks) }
    | _, _ => none
  | .fork c ok => match s.pc c with
    | .forking x => if ok = true then
        some { s.setPc c (.closingIn x) with
          child := Function.update s.child x.call (some ⟨x, s.fds, false, false⟩)
          forkNo := Function.update s.forkNo x.call s.forks
          forks := s.forks + 1 }
      else some (s.setPc c (.err3 x))
    | _ => none
  | .close c => match (s.pc c).closes with
    | some (fd, f, pc) => some ((s.closeFd fd f).setPc c pc)
    | none => none
  | .read c => match s.pc c with
    | .reading _ => some s
    | _ => none
  | .readEnd c => match s.pc c with
    | .reading x => some (s.setPc c (.closingRd x))
    | _ => none
  | .wait c => match s.pc c with
    | .waiting x => match s.child x.call with
      | some ch => if ch.exited = true then
          some { s.setPc c .idle with child := Function.update s.child x.call none } else none
      | none => none
    | _ => none
  | .childExec call => match s.child call with
    | some ch => if ch.ready = false ∧ ch.exited = false then
        some { s with
          child := Function.update s.child call (some { ch with table := childStdio ch.table ch.fds, ready := true })
          failed := s.failed || !ch.closesOwn }
      else none
    | none => none
  | .childFork call => match s.child call with
    | some ch => if ch.ready = true ∧ ch.exited = false then
        some { s with strays := s.strays ++ [⟨ch.table, s.forkNo call⟩] }
      else none
    | none => none
  | .childExit call => match s.child call with
    | some ch => if ch.exited = false then
        some { s with child := Function.update s.child call (some { ch with table := fun _ => none, exited := true }) }
      else none
    | none => none
  | .system => some { s with strays := s.strays ++ [⟨s.fds, s.forks⟩], forks := s.forks + 1 }
  | .strayFork k => s.strays[k]?.map fun p => { s with strays := s.strays ++ [p] }
  | .strayExit k => if k < s.strays.length then some { s with strays := s.strays.eraseIdx k } else none
  | .otherOpen fd => if s.fds fd = none then
      some { s with fds := Function.update s.fds fd (some .other), others := Function.update s.others fd (some .other) }
    else none
  | .otherClose fd => if 2 < fd ∧ s.others fd ≠ none then
      some { s with fds := Function.update s.fds fd none, others := Function.update s.others fd none }
    else none

@[simp] theorem setPc_pc (s : ExecState Cmd) (c : Cmd) (q : ExecPc) : (s.setPc c q).pc = Function.update s.pc c q := rfl

omit [DecidableEq Cmd] in
@[simp] theorem closeFd_pc (s : ExecState Cmd) (fd : Nat) (f : FdFile) : (s.closeFd fd f).pc = s.pc := rfl

def start (fds : Nat → Option FdFile) : ExecState Cmd where
  fds := fds
  others := fds
  pc := fun _ => .idle
  child := fun _ => none
  strays := []
  calls := 0
  forks := 0
  forkNo := fun _ => 0
  outOpen := fun _ => none
  outClosed := fun _ => none
  failed := false

/-- No pipe is open at first, and 0, 1 and 2 are. -/
def machine (Cmd : Type) [DecidableEq Cmd] : Machine (ExecState Cmd) (ExecStep Cmd) where
  init s := ∃ fds, (∀ fd f, fds fd = some f → f = .other) ∧ (∀ fd, fd ≤ 2 → fds fd = some .other) ∧ s = start fds
  step := step

/-! ## The steps -/

/-- What a step does. -/
inductive Moved (s : ExecState Cmd) : ExecState Cmd → Prop where
  | same : Moved s s
  | pipeIn (c : Cmd) (rd wr : Nat) (hc : s.pc c = .idle) (hrd : s.fds rd = none) (hwr : s.fds wr = none)
      (hne : rd ≠ wr) : Moved s { s.setPc c (.piped s.calls rd wr) with
        fds := Function.update (Function.update s.fds rd (some (.inRd s.calls))) wr (some (.inWr s.calls))
        calls := s.calls + 1 }
  | pipeOut (c : Cmd) (call inRd inWr rd wr : Nat) (hc : s.pc c = .piped call inRd inWr) (hrd : s.fds rd = none)
      (hwr : s.fds wr = none) (hne : rd ≠ wr) : Moved s { s.setPc c (.forking ⟨call, inRd, inWr, rd, wr⟩) with
        fds := Function.update (Function.update s.fds rd (some (.outRd call))) wr (some (.outWr call))
        outOpen := Function.update s.outOpen call (some s.forks) }
  | pipeFail (c : Cmd) (call inRd inWr : Nat) (hc : s.pc c = .piped call inRd inWr) :
      Moved s (s.setPc c (.err2 call inRd inWr))
  | fork (c : Cmd) (x : CallFds) (hc : s.pc c = .forking x) : Moved s { s.setPc c (.closingIn x) with
      child := Function.update s.child x.call (some ⟨x, s.fds, false, false⟩)
      forkNo := Function.update s.forkNo x.call s.forks
      forks := s.forks + 1 }
  | forkFail (c : Cmd) (x : CallFds) (hc : s.pc c = .forking x) : Moved s (s.setPc c (.err3 x))
  | close (c : Cmd) (fd : Nat) (f : FdFile) (pc : ExecPc) (hc : (s.pc c).closes = some (fd, f, pc)) :
      Moved s ((s.closeFd fd f).setPc c pc)
  | readEnd (c : Cmd) (x : CallFds) (hc : s.pc c = .reading x) : Moved s (s.setPc c (.closingRd x))
  | wait (c : Cmd) (x : CallFds) (ch : ExecChild) (hc : s.pc c = .waiting x) (hch : s.child x.call = some ch)
      (hexit : ch.exited = true) :
      Moved s { s.setPc c .idle with child := Function.update s.child x.call none }
  | childExec (call : Nat) (ch : ExecChild) (hch : s.child call = some ch) (hready : ch.ready = false)
      (hexit : ch.exited = false) : Moved s { s with
        child := Function.update s.child call (some { ch with table := childStdio ch.table ch.fds, ready := true })
        failed := s.failed || !ch.closesOwn }
  | childFork (call : Nat) (ch : ExecChild) (hch : s.child call = some ch) (hexit : ch.exited = false) :
      Moved s { s with strays := s.strays ++ [⟨ch.table, s.forkNo call⟩] }
  | childExit (call : Nat) (ch : ExecChild) (hch : s.child call = some ch) (hexit : ch.exited = false) :
      Moved s { s with
        child := Function.update s.child call (some { ch with table := fun _ => none, exited := true }) }
  | system : Moved s { s with strays := s.strays ++ [⟨s.fds, s.forks⟩], forks := s.forks + 1 }
  | strayFork (p : Stray) (hp : p ∈ s.strays) : Moved s { s with strays := s.strays ++ [p] }
  | strayExit (k : Nat) : Moved s { s with strays := s.strays.eraseIdx k }
  | otherOpen (fd : Nat) (hfd : s.fds fd = none) : Moved s { s with
      fds := Function.update s.fds fd (some .other), others := Function.update s.others fd (some .other) }
  | otherClose (fd : Nat) (hlt : 2 < fd) (hfd : s.others fd ≠ none) : Moved s { s with
      fds := Function.update s.fds fd none, others := Function.update s.others fd none }

variable {s s' : ExecState Cmd} {c : Cmd} {n : Nat} {x : CallFds}

omit [DecidableEq Cmd] in
theorem openPipe_some {rd wr : Nat} {frd fwr : FdFile} (h : s.openPipe rd wr frd fwr = some s') :
    s.fds rd = none ∧ s.fds wr = none ∧ rd ≠ wr ∧
      s' = { s with fds := Function.update (Function.update s.fds rd (some frd)) wr (some fwr) } := by
  obtain ⟨⟨hrd, hwr, hne⟩, rfl⟩ := guard_some h
  exact ⟨hrd, hwr, hne, rfl⟩

theorem moved {a : ExecStep Cmd} (hs : step s a = some s') : Moved s s' := by
  cases a with
  | pipeIn c fds =>
    simp only [step] at hs
    split at hs
    · cases hs
      exact .same
    · obtain ⟨t, ht, rfl⟩ := Option.map_eq_some_iff.1 hs
      obtain ⟨hrd, hwr, hne, rfl⟩ := openPipe_some ht
      exact .pipeIn c _ _ ‹_› hrd hwr hne
    · cases hs
  | pipeOut c fds =>
    simp only [step] at hs
    split at hs
    · cases hs
      exact .pipeFail c _ _ _ ‹_›
    · obtain ⟨t, ht, rfl⟩ := Option.map_eq_some_iff.1 hs
      obtain ⟨hrd, hwr, hne, rfl⟩ := openPipe_some ht
      exact .pipeOut c _ _ _ _ _ ‹_› hrd hwr hne
    · cases hs
  | fork c ok =>
    simp only [step] at hs
    split at hs
    · split at hs
      · cases hs
        exact .fork c _ ‹_›
      · cases hs
        exact .forkFail c _ ‹_›
    · cases hs
  | close c =>
    simp only [step] at hs
    split at hs
    · cases hs
      exact .close c _ _ _ ‹_›
    · cases hs
  | read c =>
    simp only [step] at hs
    split at hs
    · cases hs
      exact .same
    · cases hs
  | readEnd c =>
    simp only [step] at hs
    split at hs
    · cases hs
      exact .readEnd c _ ‹_›
    · cases hs
  | wait c =>
    simp only [step] at hs
    split at hs
    · split at hs
      · obtain ⟨hexit, rfl⟩ := guard_some hs
        exact .wait c _ _ ‹_› ‹_› hexit
      · cases hs
    · cases hs
  | childExec call =>
    simp only [step] at hs
    split at hs
    · obtain ⟨⟨hready, hexit⟩, rfl⟩ := guard_some hs
      exact .childExec call _ ‹_› hready hexit
    · cases hs
  | childFork call =>
    simp only [step] at hs
    split at hs
    · obtain ⟨⟨-, hexit⟩, rfl⟩ := guard_some hs
      exact .childFork call _ ‹_› hexit
    · cases hs
  | childExit call =>
    simp only [step] at hs
    split at hs
    · obtain ⟨hexit, rfl⟩ := guard_some hs
      exact .childExit call _ ‹_› hexit
    · cases hs
  | system =>
    cases hs
    exact .system
  | strayFork k =>
    obtain ⟨p, hp, rfl⟩ := Option.map_eq_some_iff.1 hs
    exact .strayFork p (List.mem_of_getElem? hp)
  | strayExit k =>
    obtain ⟨-, rfl⟩ := guard_some hs
    exact .strayExit k
  | otherOpen fd =>
    obtain ⟨hfd, rfl⟩ := guard_some hs
    exact .otherOpen fd hfd
  | otherClose fd =>
    obtain ⟨⟨hlt, hfd⟩, rfl⟩ := guard_some hs
    exact .otherClose fd hlt hfd

/-! ## Whose descriptors are open -/

/-- The descriptors of the parent are accounted for, and no two commands have a call of one number. -/
structure Accounted (s : ExecState Cmd) : Prop where
  accounts : Accounts s.fds s.others fun c => (s.pc c).held
  others_other : ∀ fd f, s.others fd = some f → f = .other
  stdio : ∀ fd, fd ≤ 2 → s.others fd = some .other
  call_lt : ∀ c n, (s.pc c).call? = some n → n < s.calls
  call_inj : ∀ c c' n, (s.pc c).call? = some n → (s.pc c').call? = some n → c = c'
  fine : s.failed = false

theorem closes_held {p q : ExecPc} {fd : Nat} {f : FdFile} (h : p.closes = some (fd, f, q)) :
    p.held.Perm ((fd, f) :: q.held) := by
  cases p <;> cases h <;> simp only [ExecPc.held] <;> grind

theorem closes_call {p q : ExecPc} {fd : Nat} {f : FdFile} (h : p.closes = some (fd, f, q)) (hn : q.call? = some n) :
    p.call? = some n := by
  cases p <;> cases h <;> first | exact hn | cases hn

/-- The ends that a command holds are those of its call. -/
theorem held_call {p : ExecPc} {fd : Nat} {f : FdFile} (h : (fd, f) ∈ p.held) : p.call? = f.call? := by
  cases p <;> simp only [ExecPc.held, List.mem_cons, List.not_mem_nil, or_false, Prod.mk.injEq] at h <;>
    grind [FdFile.call?, ExecPc.call?]

omit [DecidableEq Cmd] in
theorem Accounted.held_open (h : Accounted s) {fd : Nat} {f : FdFile} (hm : (fd, f) ∈ (s.pc c).held) :
    s.fds fd = some f :=
  h.accounts.held_open c fd f hm

/-- A command that goes on in its call, leaves it, or begins the next. -/
theorem Accounted.numbers (h : Accounted s) {q : ExecPc} {k : Nat} (hk : s.calls ≤ k)
    (hq : ∀ n, q.call? = some n → (s.pc c).call? = some n ∨ (n = s.calls ∧ n < k)) :
    (∀ d n, (Function.update s.pc c q d).call? = some n → n < k) ∧
      ∀ d d' n, (Function.update s.pc c q d).call? = some n → (Function.update s.pc c q d').call? = some n →
        d = d' := by
  have hlt : ∀ d n, (s.pc d).call? = some n → n < k := fun d n hn => Nat.lt_of_lt_of_le (h.call_lt d n hn) hk
  have hother : ∀ d n, d ≠ c → (s.pc d).call? = some n → q.call? = some n → False := by
    intro d n hd hn hqn
    rcases hq n hqn with hc | ⟨rfl, -⟩
    · exact hd (h.call_inj d c n hn hc)
    · exact Nat.lt_irrefl _ (h.call_lt d _ hn)
  refine ⟨fun d n hn => ?_, fun d d' n hn hn' => ?_⟩
  · by_cases hd : d = c
    · subst hd
      rw [Function.update_self] at hn
      rcases hq n hn with hc | ⟨-, hlt⟩
      · exact hlt d n hc
      · exact hlt
    · rw [Function.update_of_ne hd] at hn
      exact hlt d n hn
  · by_cases hd : d = c <;> by_cases hd' : d' = c
    · rw [hd, hd']
    · subst hd
      rw [Function.update_self] at hn
      rw [Function.update_of_ne hd'] at hn'
      exact (hother d' n hd' hn' hn).elim
    · subst hd'
      rw [Function.update_self] at hn'
      rw [Function.update_of_ne hd] at hn
      exact (hother d n hd hn hn').elim
    · rw [Function.update_of_ne hd] at hn
      rw [Function.update_of_ne hd'] at hn'
      exact h.call_inj d d' n hn hn'

/-- A command that only goes on. -/
theorem Accounted.move (h : Accounted s) {q : ExecPc} (hheld : q.held = (s.pc c).held)
    (hcall : ∀ n, q.call? = some n → (s.pc c).call? = some n) : Accounted (s.setPc c q) := by
  obtain ⟨hlt, hinj⟩ := h.numbers (Nat.le_refl _) fun n hn => .inl (hcall n hn)
  refine ⟨h.accounts.congr fun d => ?_, h.others_other, h.stdio, hlt, hinj, h.fine⟩
  by_cases hd : d = c
  · subst hd
    simp [setPc, hheld]
  · simp [setPc, hd]

/-- **A `pipe`.** -/
theorem Accounted.pipe (h : Accounted s) {q : ExecPc} {rd wr k : Nat} {frd fwr : FdFile} (hrd : s.fds rd = none)
    (hwr : s.fds wr = none) (hne : rd ≠ wr) (hheld : q.held.Perm ((rd, frd) :: (wr, fwr) :: (s.pc c).held))
    (hk : s.calls ≤ k) (hq : ∀ n, q.call? = some n → (s.pc c).call? = some n ∨ (n = s.calls ∧ n < k)) :
    Accounted { s.setPc c q with
      fds := Function.update (Function.update s.fds rd (some frd)) wr (some fwr), calls := k } := by
  obtain ⟨hlt, hinj⟩ := h.numbers hk hq
  refine ⟨?_, h.others_other, h.stdio, hlt, hinj, h.fine⟩
  have hfirst : Accounts (Function.update s.fds rd (some frd)) s.others
      (Function.update (fun d => (s.pc d).held) c ((rd, frd) :: (s.pc c).held)) :=
    h.accounts.take (i := c) hrd (by rw [Function.update_self]) fun d hd => Function.update_of_ne hd ..
  refine hfirst.take (i := c) ?_ ?_ fun d hd => ?_
  · rwa [Function.update_of_ne hne.symm]
  · simpa [setPc] using hheld.trans (.swap _ _ _)
  · simp [setPc, hd]

/-- **A `close` of the parent closes an end of its own.** -/
theorem Accounted.close (h : Accounted s) {q : ExecPc} {fd : Nat} {f : FdFile}
    (hc : (s.pc c).closes = some (fd, f, q)) : Accounted ((s.closeFd fd f).setPc c q) := by
  obtain ⟨hlt, hinj⟩ := h.numbers (Nat.le_refl _) fun n hn => .inl (closes_call hc hn)
  refine ⟨h.accounts.give (i := c) (v := f) ?_ fun d hd => ?_, h.others_other, h.stdio, hlt, hinj, ?_⟩
  · simpa [setPc] using closes_held hc
  · simp [setPc, hd]
  · have hopen := h.held_open ((closes_held hc).symm.subset (List.mem_cons_self ..))
    simp [closeFd, setPc, hopen, h.fine]

omit [DecidableEq Cmd] in
/-- An end of the pipes of a call is open only in the command whose call it is. -/
theorem Accounted.ends_iff (h : Accounted s) (hc : (s.pc c).call? = some n) {f : FdFile} (hf : f.call? = some n)
    (fd : Nat) : s.fds fd = some f ↔ (fd, f) ∈ (s.pc c).held := by
  refine ⟨fun ho => ?_, h.held_open⟩
  rcases h.accounts.owner fd f ho with hb | ⟨d, hd⟩
  · rw [h.others_other fd f hb] at hf
    cases hf
  · rwa [← h.call_inj d c n ((held_call hd).trans hf) hc]

omit [DecidableEq Cmd] in
/-- In the read loop the parent's write end is closed. -/
theorem Accounted.reading (h : Accounted s) (hc : s.pc c = .reading x) (fd : Nat) :
    s.fds fd ≠ some (.outWr x.call) := by
  intro hfd
  have hm := (h.ends_iff (c := c) (n := x.call) (by rw [hc]; rfl) rfl fd).1 hfd
  rw [hc] at hm
  simp [ExecPc.held] at hm

theorem Accounted.step (h : Accounted s)
    (hown : ∀ n ch, s.child n = some ch → ch.ready = false → ch.exited = false → ch.closesOwn = true)
    (hs : Moved s s') : Accounted s' := by
  cases hs with
  | same => exact h
  | pipeIn c rd wr hc hrd hwr hne =>
    refine h.pipe hrd hwr hne ?_ (Nat.le_succ _) fun n hn => .inr ?_
    · rw [hc]
      exact .refl _
    · cases hn
      exact ⟨rfl, Nat.lt_succ_self _⟩
  | pipeOut c call inRd inWr rd wr hc hrd hwr hne =>
    have hp := h.pipe (c := c) (q := .forking ⟨call, inRd, inWr, rd, wr⟩) hrd hwr hne (by rw [hc]; exact .refl _)
      (Nat.le_refl _) fun n hn => .inl (by rw [hc]; exact hn)
    exact ⟨hp.accounts, hp.others_other, hp.stdio, hp.call_lt, hp.call_inj, hp.fine⟩
  | pipeFail c call inRd inWr hc => exact h.move (by rw [hc]; rfl) fun n hn => by rw [hc]; exact hn
  | fork c x hc =>
    have hp := h.move (c := c) (q := .closingIn x) (by rw [hc]; rfl) fun n hn => by rw [hc]; exact hn
    exact ⟨hp.accounts, hp.others_other, hp.stdio, hp.call_lt, hp.call_inj, hp.fine⟩
  | forkFail c x hc => exact h.move (by rw [hc]; rfl) fun n hn => by rw [hc]; exact hn
  | close c fd f pc hc => exact h.close hc
  | readEnd c x hc => exact h.move (by rw [hc]; rfl) fun n hn => by rw [hc]; exact hn
  | wait c x ch hc hch hexit =>
    have hp := h.move (c := c) (q := .idle) (by rw [hc]; rfl) fun n hn => by cases hn
    exact ⟨hp.accounts, hp.others_other, hp.stdio, hp.call_lt, hp.call_inj, hp.fine⟩
  | childExec call ch hch hready hexit =>
    refine ⟨h.accounts, h.others_other, h.stdio, h.call_lt, h.call_inj, ?_⟩
    simp [h.fine, hown call ch hch hready hexit]
  | childFork | childExit | system | strayFork | strayExit =>
    exact ⟨h.accounts, h.others_other, h.stdio, h.call_lt, h.call_inj, h.fine⟩
  | otherOpen fd hfd =>
    refine ⟨h.accounts.baseTake hfd, fun k f hk => ?_, fun k hk => ?_, h.call_lt, h.call_inj, h.fine⟩
    · by_cases he : k = fd
      · subst he
        simpa using hk.symm
      · exact h.others_other k f (by simpa [he] using hk)
    · by_cases he : k = fd
      · simp [he]
      · simpa [he] using h.stdio k hk
  | otherClose fd hlt hfd =>
    refine ⟨h.accounts.baseGive hfd, fun k f hk => ?_, fun k hk => ?_, h.call_lt, h.call_inj, h.fine⟩
    · by_cases he : k = fd
      · subst he
        simp at hk
      · exact h.others_other k f (by simpa [he] using hk)
    · have he : k ≠ fd := by omega
      simpa [he] using h.stdio k hk

/-! ## The children -/

omit [DecidableEq Cmd] in
theorem closes_forked {p q : ExecPc} {fd : Nat} {f : FdFile} (h : p.closes = some (fd, f, q)) :
    q.forked = p.forked := by
  cases p <;> cases h <;> rfl

theorem forked_call {p : ExecPc} (h : p.forked = some x) : p.call? = some x.call := by
  cases p <;> cases h <;> rfl

/-- Every child is one that a command still has to wait for. -/
structure Parented (s : ExecState Cmd) : Prop where
  child_pc : ∀ n ch, s.child n = some ch → ch.fds.call = n ∧ ∃ c, (s.pc c).forked = some ch.fds
  pc_child : ∀ c x, (s.pc c).forked = some x → ∃ ch, s.child x.call = some ch

theorem Parented.move (h : Parented s) {q : ExecPc} (hq : q.forked = (s.pc c).forked)
    (hpc : s'.pc = Function.update s.pc c q) (hch : s'.child = s.child) : Parented s' := by
  have hf : ∀ d, (s'.pc d).forked = (s.pc d).forked := by
    intro d
    rw [hpc]
    by_cases hd : d = c
    · rw [hd, Function.update_self, hq]
    · rw [Function.update_of_ne hd]
  exact ⟨by simpa only [hf, hch] using h.child_pc, by simpa only [hf, hch] using h.pc_child⟩

omit [DecidableEq Cmd] in
/-- A child that goes on. -/
theorem Parented.childStep (h : Parented s) {ch ch' : ExecChild} (hch : s.child n = some ch) (hfds : ch'.fds = ch.fds) :
    Parented { s with child := Function.update s.child n (some ch') } := by
  refine ⟨fun m e he => ?_, fun d y hd => ?_⟩
  · simp only at he
    by_cases hm : m = n
    · subst hm
      rw [Function.update_self] at he
      cases he
      rw [hfds]
      exact h.child_pc m ch hch
    · exact h.child_pc m e (by rwa [Function.update_of_ne hm] at he)
  · obtain ⟨e, he⟩ := h.pc_child d y hd
    by_cases hm : y.call = n
    · exact ⟨ch', by simp [hm]⟩
    · exact ⟨e, by simpa [hm] using he⟩

theorem Parented.fork (h : Parented s) (hc : s.pc c = .forking x) {ch : ExecChild} (hfds : ch.fds = x)
    (hpc : s'.pc = Function.update s.pc c (.closingIn x))
    (hch : s'.child = Function.update s.child x.call (some ch)) : Parented s' := by
  refine ⟨fun m e he => ?_, fun d y hd => ?_⟩
  · rw [hch] at he
    rw [hpc]
    by_cases hm : m = x.call
    · subst hm
      rw [Function.update_self] at he
      cases he
      exact ⟨by rw [hfds], c, by rw [Function.update_self, hfds]; rfl⟩
    · rw [Function.update_of_ne hm] at he
      obtain ⟨hcall, d, hd⟩ := h.child_pc m e he
      have hne : d ≠ c := by
        rintro rfl
        rw [hc] at hd
        cases hd
      exact ⟨hcall, d, by rwa [Function.update_of_ne hne]⟩
  · rw [hch]
    by_cases hm : y.call = x.call
    · exact ⟨ch, by simp [hm]⟩
    · have hne : d ≠ c := by
        rintro rfl
        rw [hpc, Function.update_self] at hd
        cases hd
        exact hm rfl
      rw [hpc, Function.update_of_ne hne] at hd
      obtain ⟨e, he⟩ := h.pc_child d y hd
      exact ⟨e, by simpa [hm] using he⟩

theorem Parented.wait (h : Parented s) (ha : Accounted s) (hc : s.pc c = .waiting x) :
    Parented { s.setPc c .idle with child := Function.update s.child x.call none } := by
  refine ⟨fun m e he => ?_, fun d y hd => ?_⟩
  · simp only at he
    have hm : m ≠ x.call := by
      rintro rfl
      simp at he
    rw [Function.update_of_ne hm] at he
    obtain ⟨hcall, d, hd⟩ := h.child_pc m e he
    have hne : d ≠ c := by
      rintro rfl
      rw [hc] at hd
      cases hd
      exact hm hcall.symm
    exact ⟨hcall, d, by simpa [hne] using hd⟩
  · have hne : d ≠ c := by
      rintro rfl
      simp [ExecPc.forked] at hd
    have hd' : (s.pc d).forked = some y := by simpa [hne] using hd
    have hm : y.call ≠ x.call := by
      intro he
      have hy := forked_call hd'
      rw [he] at hy
      exact hne (ha.call_inj d c x.call hy (by rw [hc]; rfl))
    obtain ⟨e, he⟩ := h.pc_child d y hd'
    exact ⟨e, by simpa [hm] using he⟩

theorem Parented.step (h : Parented s) (ha : Accounted s) (hs : Moved s s') : Parented s' := by
  cases hs with
  | same => exact h
  | pipeIn c rd wr hc hrd hwr hne => exact h.move (by rw [hc]; rfl) rfl rfl
  | pipeOut c call inRd inWr rd wr hc hrd hwr hne => exact h.move (by rw [hc]; rfl) rfl rfl
  | pipeFail c call inRd inWr hc => exact h.move (by rw [hc]; rfl) rfl rfl
  | fork c x hc => exact h.fork hc rfl rfl rfl
  | forkFail c x hc => exact h.move (by rw [hc]; rfl) rfl rfl
  | close c fd f pc hc => exact h.move (closes_forked hc) rfl rfl
  | readEnd c x hc => exact h.move (by rw [hc]; rfl) rfl rfl
  | wait c x ch hc hch hexit => exact h.wait ha hc
  | childExec call ch hch hready hexit =>
    have hp := h.childStep hch
      (show ({ ch with table := childStdio ch.table ch.fds, ready := true } : ExecChild).fds = ch.fds from rfl)
    exact ⟨hp.child_pc, hp.pc_child⟩
  | childExit call ch hch hexit => exact h.childStep hch rfl
  | childFork | system | strayFork | strayExit | otherOpen | otherClose => exact ⟨h.child_pc, h.pc_child⟩

/-- What a child has open right after `fork`. -/
structure Fresh (x : CallFds) (table : Nat → Option FdFile) : Prop where
  stdio : ∀ fd, fd ≤ 2 → table fd = some .other
  ends : ∀ f fd, f.call? = some x.call → (table fd = some f ↔ (fd, f) ∈ (ExecPc.forking x).held)

/-- What it has open once it is in `execl`. -/
structure Running (x : CallFds) (table : Nat → Option FdFile) : Prop where
  stdin : table 0 = some (.inRd x.call)
  stdout : table 1 = some (.outWr x.call)
  stderr : table 2 = some (.outWr x.call)
  parent_ends : ∀ fd, table fd ≠ some (.inWr x.call) ∧ table fd ≠ some (.outRd x.call)

theorem dup2_some {table : Nat → Option FdFile} {oldfd newfd : Nat} {f : FdFile} (h : table oldfd = some f) :
    dup2 table oldfd newfd = Function.update table newfd (some f) := by
  simp only [dup2, h]

section
variable {table : Nat → Option FdFile}

theorem Fresh.open (h : Fresh x table) {f : FdFile} {fd : Nat} (hm : (fd, f) ∈ (ExecPc.forking x).held) :
    table fd = some f :=
  (h.ends f fd (held_call hm).symm).2 hm

/-- The ends of the pipes are none of 0, 1 and 2. -/
theorem Fresh.above (h : Fresh x table) {f : FdFile} {fd : Nat} (hm : (fd, f) ∈ (ExecPc.forking x).held) : 2 < fd := by
  by_contra hle
  have ho := h.open hm
  rw [h.stdio fd (by omega)] at ho
  cases ho
  cases held_call hm

/-- Two ends are two descriptors. -/
theorem Fresh.ne (h : Fresh x table) {f g : FdFile} {fd fd' : Nat} (hm : (fd, f) ∈ (ExecPc.forking x).held)
    (hm' : (fd', g) ∈ (ExecPc.forking x).held) (hne : f ≠ g) : fd ≠ fd' := by
  rintro rfl
  have ho := h.open hm
  rw [h.open hm'] at ho
  exact hne (Option.some.inj ho).symm

theorem inRd_mem : (x.inRd, .inRd x.call) ∈ (ExecPc.forking x).held := by simp [ExecPc.held]
theorem inWr_mem : (x.inWr, .inWr x.call) ∈ (ExecPc.forking x).held := by simp [ExecPc.held]
theorem outRd_mem : (x.outRd, .outRd x.call) ∈ (ExecPc.forking x).held := by simp [ExecPc.held]
theorem outWr_mem : (x.outWr, .outWr x.call) ∈ (ExecPc.forking x).held := by simp [ExecPc.held]

theorem Fresh.childStdio_eq (h : Fresh x table) : childStdio table x =
    Function.update (Function.update (Function.update (Function.update (Function.update table x.inWr none) x.outRd none)
      0 (some (.inRd x.call))) 1 (some (.outWr x.call))) 2 (some (.outWr x.call)) := by
  have hrd : Function.update (Function.update table x.inWr none) x.outRd none x.inRd = some (.inRd x.call) := by
    rw [Function.update_of_ne (h.ne inRd_mem outRd_mem nofun), Function.update_of_ne (h.ne inRd_mem inWr_mem nofun)]
    exact h.open inRd_mem
  have hwr : Function.update (Function.update table x.inWr none) x.outRd none x.outWr = some (.outWr x.call) := by
    rw [Function.update_of_ne (h.ne outWr_mem outRd_mem (by simp)),
      Function.update_of_ne (h.ne outWr_mem inWr_mem nofun)]
    exact h.open outWr_mem
  have hlt := h.above outWr_mem
  simp only [childStdio]
  have hwr' : ∀ v, Function.update (Function.update (Function.update table x.inWr none) x.outRd none) 0 v x.outWr =
      some (.outWr x.call) := by
    intro v
    rw [Function.update_of_ne (by omega)]
    exact hwr
  rw [dup2_some hrd, dup2_some (hwr' _), dup2_some]
  rw [Function.update_of_ne (by omega)]
  exact hwr' _

/-- What is open in the child afterwards: the two ends that it uses, and what was open under another number than those
of the parent's ends. -/
theorem Fresh.childStdio_some (h : Fresh x table) {fd : Nat} {f : FdFile} (hf : childStdio table x fd = some f) :
    f = .inRd x.call ∨ f = .outWr x.call ∨ (fd ≠ x.inWr ∧ fd ≠ x.outRd ∧ table fd = some f) := by
  rw [h.childStdio_eq] at hf
  by_cases h2 : fd = 2
  · subst h2
    cases hf
    exact .inr (.inl rfl)
  rw [Function.update_of_ne h2] at hf
  by_cases h1 : fd = 1
  · subst h1
    cases hf
    exact .inr (.inl rfl)
  rw [Function.update_of_ne h1] at hf
  by_cases h0 : fd = 0
  · subst h0
    cases hf
    exact .inl rfl
  rw [Function.update_of_ne h0] at hf
  by_cases hrd : fd = x.outRd
  · subst hrd
    simp at hf
  rw [Function.update_of_ne hrd] at hf
  by_cases hwr : fd = x.inWr
  · subst hwr
    simp at hf
  rw [Function.update_of_ne hwr] at hf
  exact .inr (.inr ⟨hwr, hrd, hf⟩)

/-- **The child's three descriptors are the ends it is to have**, and it has none of the parent's. -/
theorem Fresh.running (h : Fresh x table) : Running x (childStdio table x) := by
  refine ⟨?_, ?_, ?_, fun fd => ⟨fun hf => ?_, fun hf => ?_⟩⟩
  · rw [h.childStdio_eq]
    rfl
  · rw [h.childStdio_eq]
    rfl
  · rw [h.childStdio_eq]
    rfl
  · rcases h.childStdio_some hf with he | he | ⟨hne, -, ho⟩
    · cases he
    · cases he
    · have hm := (h.ends _ fd rfl).1 ho
      simp [ExecPc.held, hne] at hm
  · rcases h.childStdio_some hf with he | he | ⟨-, hne, ho⟩
    · cases he
    · cases he
    · have hm := (h.ends _ fd rfl).1 ho
      simp [ExecPc.held, hne] at hm

/-- What the child does before `execl` changes of no pipe whether the child can write to it. -/
theorem Fresh.writes_iff (h : Fresh x table) (n : Nat) :
    (∃ fd, childStdio table x fd = some (.outWr n)) ↔ ∃ fd, table fd = some (.outWr n) := by
  have hout := h.open outWr_mem
  refine ⟨fun ⟨fd, hfd⟩ => ?_, fun ⟨fd, hfd⟩ => ?_⟩
  · rcases h.childStdio_some hfd with he | he | ⟨-, -, ho⟩
    · cases he
    · cases he
      exact ⟨x.outWr, hout⟩
    · exact ⟨fd, ho⟩
  · refine ⟨fd, ?_⟩
    have hlt : 2 < fd := by
      by_contra hle
      rw [h.stdio fd (by omega)] at hfd
      cases hfd
    have hin : fd ≠ x.inWr := by
      rintro rfl
      rw [h.open inWr_mem] at hfd
      cases hfd
    have hrd : fd ≠ x.outRd := by
      rintro rfl
      rw [h.open outRd_mem] at hfd
      cases hfd
    rw [h.childStdio_eq]
    simpa [Function.update_apply, show fd ≠ 0 by omega, show fd ≠ 1 by omega, show fd ≠ 2 by omega, hin, hrd] using hfd

end

/-- What a child has open, at each of its stages. -/
structure TableOk (ch : ExecChild) : Prop where
  fresh : ch.ready = false → ch.exited = false → Fresh ch.fds ch.table
  running : ch.ready = true → ch.exited = false → Running ch.fds ch.table
  gone : ch.exited = true → ch.table = fun _ => none

def Tables (s : ExecState Cmd) : Prop := ∀ m ch, s.child m = some ch → TableOk ch

theorem TableOk.closesOwn {ch : ExecChild} (h : TableOk ch) (hready : ch.ready = false) (hexit : ch.exited = false) :
    ch.closesOwn = true := by
  have hf := h.fresh hready hexit
  simp [ExecChild.closesOwn, hf.open inWr_mem, hf.open outRd_mem]

omit [DecidableEq Cmd] in
theorem Tables.update (h : Tables s) {e : ExecChild} (he : TableOk e)
    (hch : s'.child = Function.update s.child n (some e)) : Tables s' := by
  intro m ch hm
  rw [hch] at hm
  by_cases hmn : m = n
  · subst hmn
    rw [Function.update_self] at hm
    cases hm
    exact he
  · rw [Function.update_of_ne hmn] at hm
    exact h m ch hm

omit [DecidableEq Cmd] in
theorem Accounted.fresh (h : Accounted s) (hc : s.pc c = .forking x) : Fresh x s.fds where
  stdio fd hfd := h.accounts.base_open fd .other (h.stdio fd hfd)
  ends f fd hf := by
    have he := h.ends_iff (c := c) (n := x.call) (by rw [hc]; rfl) hf fd
    rwa [hc] at he

theorem Tables.step (h : Tables s) (ha : Accounted s) (hs : Moved s s') : Tables s' := by
  cases hs with
  | same => exact h
  | fork c x hc =>
    exact h.update ⟨fun _ _ => ha.fresh hc, by simp, by simp⟩ rfl
  | wait c x ch hc hch hexit =>
    intro m e hm
    simp only [Function.update_apply] at hm
    split at hm
    · cases hm
    · exact h m e hm
  | childExec call ch hch hready hexit =>
    refine h.update ⟨by simp, fun _ _ => ((h call ch hch).fresh hready hexit).running, fun he => ?_⟩ rfl
    exact absurd he (by simp [hexit])
  | childExit call ch hch hexit => exact h.update ⟨by simp, by simp, fun _ => rfl⟩ rfl
  | _ => exact h

/-! ## Who can write to an output pipe -/

/-- This process made its fork `no` while it had the pipe for the output of call `n` open for writing. -/
def During (outOpen outClosed : Nat → Option Nat) (n no : Nat) : Prop :=
  ∃ a, outOpen n = some a ∧ a ≤ no ∧ ∀ b, outClosed n = some b → no < b

/-- The fork of call `m` was such a one. -/
def InWindow (s : ExecState Cmd) (n m : Nat) : Prop := During s.outOpen s.outClosed n (s.forkNo m)

section
variable {outOpen outClosed : Nat → Option Nat} {call no forks : Nat}

/-- A pipe that is made later than a fork. -/
theorem during_opened (hnone : outOpen call = none) (hnew : n ≠ call ∨ no < forks) :
    During (Function.update outOpen call (some forks)) outClosed n no ↔ During outOpen outClosed n no := by
  unfold During
  by_cases hn : n = call
  · subst hn
    have hlt : no < forks := hnew.resolve_left (by simp)
    simp [hnone]
    omega
  · simp [hn]

/-- A write end that is closed later than a fork. -/
theorem during_closed (hnone : outClosed call = none) (hlt : no < forks) :
    During outOpen (Function.update outClosed call (some forks)) n no ↔ During outOpen outClosed n no := by
  unfold During
  by_cases hn : n = call
  · subst hn
    simp [hnone, hlt]
  · simp [hn]

end

/-- The records of the windows, and the children that have the write ends. -/
structure Windows (s : ExecState Cmd) : Prop where
  writes : ∀ n, (∃ c, (s.pc c).writes = some n) ↔ s.outOpen n ≠ none ∧ s.outClosed n = none
  closed : ∀ n, s.outOpen n = none → s.outClosed n = none
  unopened : ∀ c n, (s.pc c).unopened = some n → s.outOpen n = none
  later : ∀ n, s.calls ≤ n → s.outOpen n = none
  open_le : ∀ n a, s.outOpen n = some a → a ≤ s.forks
  closed_le : ∀ n b, s.outClosed n = some b → b ≤ s.forks
  fork_lt : ∀ m ch, s.child m = some ch → s.forkNo m < s.forks
  own : ∀ c x, (s.pc c).forked = some x → s.InWindow x.call x.call
  child_writes : ∀ m ch, s.child m = some ch → ch.exited = false → ∀ n,
    (∃ fd, ch.table fd = some (.outWr n)) ↔ s.InWindow n m

theorem writes_call {p : ExecPc} (h : p.writes = some n) : p.call? = some n := by
  cases p <;> cases h <;> rfl

theorem unopened_call {p : ExecPc} (h : p.unopened = some n) : p.call? = some n := by
  cases p <;> cases h
  rfl

theorem held_writes {p : ExecPc} : (∃ fd, (fd, .outWr n) ∈ p.held) ↔ p.writes = some n := by
  cases p <;> simp [ExecPc.held, ExecPc.writes, eq_comm]

omit [DecidableEq Cmd] in
theorem Accounted.writes_iff (h : Accounted s) (n : Nat) :
    (∃ fd, s.fds fd = some (.outWr n)) ↔ ∃ c, (s.pc c).writes = some n := by
  refine ⟨fun ⟨fd, hfd⟩ => ?_, fun ⟨c, hc⟩ => ?_⟩
  · rcases h.accounts.owner fd _ hfd with hb | ⟨c, hm⟩
    · cases h.others_other fd _ hb
    · exact ⟨c, held_writes.1 ⟨fd, hm⟩⟩
  · obtain ⟨fd, hm⟩ := held_writes.2 hc
    exact ⟨fd, h.held_open hm⟩

/-- A command that goes on, its output pipe being as before. -/
theorem Windows.move (h : Windows s) {q : ExecPc} {k : Nat} {fds : Nat → Option FdFile} {failed : Bool}
    (hw : q.writes = (s.pc c).writes) (hf : q.forked = (s.pc c).forked)
    (hu : ∀ n, q.unopened = some n → (s.pc c).unopened = some n ∨ s.calls ≤ n) (hk : s.calls ≤ k) :
    Windows { s with fds := fds, pc := Function.update s.pc c q, calls := k, failed := failed } := by
  have hw' : ∀ d, (Function.update s.pc c q d).writes = (s.pc d).writes := by
    intro d
    by_cases hd : d = c
    · rw [hd, Function.update_self, hw]
    · rw [Function.update_of_ne hd]
  have hf' : ∀ d, (Function.update s.pc c q d).forked = (s.pc d).forked := by
    intro d
    by_cases hd : d = c
    · rw [hd, Function.update_self, hf]
    · rw [Function.update_of_ne hd]
  refine ⟨fun n => ?_, h.closed, fun d n hn => ?_, fun n hn => h.later n (Nat.le_trans hk hn), h.open_le, h.closed_le,
    h.fork_lt, fun d y hy => ?_, h.child_writes⟩
  · simpa only [hw'] using h.writes n
  · simp only at hn
    by_cases hd : d = c
    · subst hd
      rw [Function.update_self] at hn
      exact (hu n hn).elim (h.unopened d n) (h.later n)
    · rw [Function.update_of_ne hd] at hn
      exact h.unopened d n hn
  · exact h.own d y (by rwa [hf'] at hy)

/-- **The output pipe is made.** -/
theorem Windows.open (h : Windows s) (ha : Accounted s) {call inRd inWr : Nat} {fds : Nat → Option FdFile}
    (hc : s.pc c = .piped call inRd inWr) (hx : x.call = call) :
    Windows { s with
      fds := fds
      pc := Function.update s.pc c (.forking x)
      outOpen := Function.update s.outOpen call (some s.forks) } := by
  have hcall : (s.pc c).call? = some call := by rw [hc]; rfl
  have hnone : s.outOpen call = none := h.unopened c call (by rw [hc]; rfl)
  have hother : ∀ d n, d ≠ c → (s.pc d).call? = some n → n ≠ call := by
    rintro d n hd hn rfl
    exact hd (ha.call_inj d c n hn hcall)
  have hwindow : ∀ n m, n ≠ call ∨ s.forkNo m < s.forks → (InWindow { s with
      fds := fds
      pc := Function.update s.pc c (.forking x)
      outOpen := Function.update s.outOpen call (some s.forks) } n m ↔ s.InWindow n m) :=
    fun n m hnm => during_opened hnone hnm
  refine ⟨fun n => ?_, fun n hn => ?_, fun d n hn => ?_, fun n hn => ?_, fun n a hn => ?_, h.closed_le, h.fork_lt,
    fun d y hy => ?_, fun m ch hch hexit n => ?_⟩
  · by_cases hn : n = call
    · subst hn
      simp only [Function.update_self, ne_eq, reduceCtorEq, not_false_eq_true, true_and]
      exact iff_of_true ⟨c, by simp [ExecPc.writes, hx]⟩ (h.closed n hnone)
    · simp only [Function.update_of_ne hn]
      rw [← h.writes n]
      refine exists_congr fun d => ?_
      by_cases hd : d = c
      · subst hd
        simp [hc, ExecPc.writes, hx, Ne.symm hn]
      · rw [Function.update_of_ne hd]
  · have hne : n ≠ call := by
      rintro rfl
      simp at hn
    exact h.closed n (by simpa [hne] using hn)
  · have hd : d ≠ c := by
      rintro rfl
      simp [ExecPc.unopened] at hn
    simp only [Function.update_of_ne hd] at hn
    simpa [hother d n hd (unopened_call hn)] using h.unopened d n hn
  · have hne : n ≠ call := by
      rintro rfl
      exact Nat.lt_irrefl _ (Nat.lt_of_lt_of_le (ha.call_lt c n hcall) hn)
    simpa [hne] using h.later n hn
  · by_cases hne : n = call
    · subst hne
      simp only [Function.update_self, Option.some.injEq] at hn
      exact Nat.le_of_eq hn.symm
    · exact h.open_le n a (by simpa [hne] using hn)
  · have hd : d ≠ c := by
      rintro rfl
      simp [ExecPc.forked] at hy
    simp only [Function.update_of_ne hd] at hy
    exact (hwindow _ _ (.inl (hother d y.call hd (forked_call hy)))).2 (h.own d y hy)
  · rw [hwindow n m (.inr (h.fork_lt m ch hch))]
    exact h.child_writes m ch hch hexit n

/-- **The parent closes its write end.** -/
theorem Windows.closeOut (h : Windows s) (ha : Accounted s) (hp : Parented s) {q : ExecPc} {call : Nat}
    {fds : Nat → Option FdFile} {failed : Bool} (hc : (s.pc c).writes = some call) (hq : q.writes = none)
    (hu : q.unopened = none) (hf : q.forked = (s.pc c).forked) :
    Windows { s with
      fds := fds
      pc := Function.update s.pc c q
      outClosed := Function.update s.outClosed call (some s.forks)
      failed := failed } := by
  obtain ⟨hopen, hclosed⟩ := (h.writes call).1 ⟨c, hc⟩
  have hwindow : ∀ n m, s.forkNo m < s.forks → (InWindow { s with
      fds := fds
      pc := Function.update s.pc c q
      outClosed := Function.update s.outClosed call (some s.forks)
      failed := failed } n m ↔ s.InWindow n m) := fun n m hlt => during_closed hclosed hlt
  refine ⟨fun n => ?_, fun n hn => ?_, fun d n hn => ?_, h.later, h.open_le, fun n b hn => ?_, h.fork_lt,
    fun d y hy => ?_, fun m ch hch hexit n => ?_⟩
  · by_cases hn : n = call
    · subst hn
      refine iff_of_false ?_ (by simp)
      rintro ⟨d, hd⟩
      by_cases hdc : d = c
      · subst hdc
        simp [hq] at hd
      · simp only [Function.update_of_ne hdc] at hd
        exact hdc (ha.call_inj d c n (writes_call hd) (writes_call hc))
    · simp only [Function.update_of_ne hn]
      rw [← h.writes n]
      refine exists_congr fun d => ?_
      by_cases hd : d = c
      · subst hd
        simp [hc, hq, Ne.symm hn]
      · rw [Function.update_of_ne hd]
  · have hne : n ≠ call := by
      rintro rfl
      exact hopen hn
    simpa [hne] using h.closed n hn
  · have hd : d ≠ c := by
      rintro rfl
      simp [hu] at hn
    simp only [Function.update_of_ne hd] at hn
    exact h.unopened d n hn
  · by_cases hne : n = call
    · subst hne
      simp only [Function.update_self, Option.some.injEq] at hn
      exact Nat.le_of_eq hn.symm
    · exact h.closed_le n b (by simpa [hne] using hn)
  · have hy' : (s.pc d).forked = some y := by
      by_cases hd : d = c
      · subst hd
        simpa [hf] using hy
      · simpa [hd] using hy
    obtain ⟨ch, hch⟩ := hp.pc_child d y hy'
    exact (hwindow _ _ (h.fork_lt _ ch hch)).2 (h.own d y hy')
  · rw [hwindow n m (h.fork_lt m ch hch)]
    exact h.child_writes m ch hch hexit n

omit [DecidableEq Cmd] in
/-- The next fork is during the calls whose write end is open. -/
theorem Windows.during_now (h : Windows s) (n : Nat) :
    During s.outOpen s.outClosed n s.forks ↔ s.outOpen n ≠ none ∧ s.outClosed n = none := by
  refine ⟨fun ⟨a, hopen, _, hclosed⟩ => ⟨by simp [hopen], ?_⟩, fun ⟨hopen, hclosed⟩ => ?_⟩
  · cases hb : s.outClosed n with
    | none => rfl
    | some b => exact absurd (hclosed b hb) (Nat.not_lt.2 (h.closed_le n b hb))
  · obtain ⟨a, ho⟩ := Option.ne_none_iff_exists'.1 hopen
    exact ⟨a, ho, h.open_le n a ho, by simp [hclosed]⟩

/-- **A `fork`** copies the write ends that are open at that moment. -/
theorem Windows.fork (h : Windows s) (ha : Accounted s) (hc : s.pc c = .forking x) :
    Windows { s with
      pc := Function.update s.pc c (.closingIn x)
      child := Function.update s.child x.call (some ⟨x, s.fds, false, false⟩)
      forkNo := Function.update s.forkNo x.call s.forks
      forks := s.forks + 1 } := by
  have hcall : (s.pc c).call? = some x.call := by rw [hc]; rfl
  have hnew : ∀ n, InWindow { s with
      pc := Function.update s.pc c (.closingIn x)
      child := Function.update s.child x.call (some ⟨x, s.fds, false, false⟩)
      forkNo := Function.update s.forkNo x.call s.forks
      forks := s.forks + 1 } n x.call ↔ s.outOpen n ≠ none ∧ s.outClosed n = none := by
    intro n
    simp only [InWindow, Function.update_self]
    exact h.during_now n
  have hold : ∀ n m, m ≠ x.call → (InWindow { s with
      pc := Function.update s.pc c (.closingIn x)
      child := Function.update s.child x.call (some ⟨x, s.fds, false, false⟩)
      forkNo := Function.update s.forkNo x.call s.forks
      forks := s.forks + 1 } n m ↔ s.InWindow n m) := by
    intro n m hm
    simp [InWindow, hm]
  refine ⟨fun n => ?_, h.closed, fun d n hn => ?_, h.later, fun n a hn => Nat.le_succ_of_le (h.open_le n a hn),
    fun n b hn => Nat.le_succ_of_le (h.closed_le n b hn), fun m ch hch => ?_, fun d y hy => ?_,
    fun m ch hch hexit n => ?_⟩
  · rw [← h.writes n]
    refine exists_congr fun d => ?_
    by_cases hd : d = c
    · subst hd
      simp [hc, ExecPc.writes]
    · simp only [Function.update_of_ne hd]
  · have hd : d ≠ c := by
      rintro rfl
      simp [ExecPc.unopened] at hn
    simp only [Function.update_of_ne hd] at hn
    exact h.unopened d n hn
  · by_cases hm : m = x.call
    · simp [hm]
    · simp only [Function.update_of_ne hm] at hch ⊢
      exact Nat.lt_succ_of_lt (h.fork_lt m ch hch)
  · by_cases hd : d = c
    · subst hd
      simp only [Function.update_self, ExecPc.forked, Option.some.injEq] at hy
      subst hy
      exact (hnew x.call).2 ((h.writes x.call).1 ⟨d, by rw [hc]; rfl⟩)
    · simp only [Function.update_of_ne hd] at hy
      have hne : y.call ≠ x.call := by
        intro he
        have hyc := forked_call hy
        rw [he] at hyc
        exact hd (ha.call_inj d c x.call hyc hcall)
      exact (hold _ _ hne).2 (h.own d y hy)
  · by_cases hm : m = x.call
    · subst hm
      simp only [Function.update_self, Option.some.injEq] at hch
      subst hch
      rw [hnew n, ← h.writes n]
      exact ha.writes_iff n
    · simp only [Function.update_of_ne hm] at hch
      rw [hold n m hm]
      exact h.child_writes m ch hch hexit n

omit [DecidableEq Cmd] in
/-- A child that goes on, or that is waited for. -/
theorem Windows.children (h : Windows s) {e : Option ExecChild} (hold : e = none ∨ s.child n ≠ none)
    (hw : ∀ ch, e = some ch → ch.exited = false → ∀ k, (∃ fd, ch.table fd = some (.outWr k)) ↔ s.InWindow k n) :
    Windows { s with child := Function.update s.child n e } := by
  have hcase : ∀ m ch, Function.update s.child n e m = some ch → (m = n ∧ e = some ch) ∨ s.child m = some ch := by
    intro m ch hm
    by_cases hmn : m = n
    · subst hmn
      exact .inl ⟨rfl, by simpa using hm⟩
    · exact .inr (by simpa [hmn] using hm)
  refine ⟨h.writes, h.closed, h.unopened, h.later, h.open_le, h.closed_le, fun m ch hm => ?_, h.own,
    fun m ch hm hexit k => ?_⟩
  · rcases hcase m ch hm with ⟨rfl, he⟩ | hm
    · rcases hold with rfl | hne
      · cases he
      · obtain ⟨ch', hch'⟩ := Option.ne_none_iff_exists'.1 hne
        exact h.fork_lt m ch' hch'
    · exact h.fork_lt m ch hm
  · rcases hcase m ch hm with ⟨rfl, he⟩ | hm
    · exact hw ch he hexit k
    · exact h.child_writes m ch hm hexit k

theorem Windows.step (h : Windows s) (ha : Accounted s) (hp : Parented s) (ht : Tables s) (hs : Moved s s') :
    Windows s' := by
  cases hs with
  | same => exact h
  | pipeIn c rd wr hc hrd hwr hne =>
    refine h.move (by rw [hc]; rfl) (by rw [hc]; rfl) (fun n hn => .inr ?_) (Nat.le_succ _)
    cases hn
    exact Nat.le_refl _
  | pipeOut c call inRd inWr rd wr hc hrd hwr hne => exact h.open ha hc rfl
  | pipeFail c call inRd inWr hc => exact h.move (by rw [hc]; rfl) (by rw [hc]; rfl) nofun (Nat.le_refl _)
  | fork c x hc => exact h.fork ha hc
  | forkFail c x hc => exact h.move (by rw [hc]; rfl) (by rw [hc]; rfl) nofun (Nat.le_refl _)
  | close c fd f pc hc =>
    -- only the write end for the output is recorded
    have hu : pc.unopened = none := by
      revert hc
      cases s.pc c <;> rintro ⟨⟩ <;> rfl
    have hmove : pc.writes = (s.pc c).writes → Windows { s with
        fds := Function.update s.fds fd none
        pc := Function.update s.pc c pc
        failed := s.failed || s.fds fd != some f } :=
      fun hw => h.move hw (closes_forked hc) (fun n hn => by rw [hu] at hn; cases hn) (Nat.le_refl _)
    have hw : (∀ n, f ≠ .outWr n) → pc.writes = (s.pc c).writes := by
      intro hf
      revert hc
      cases s.pc c <;> rintro ⟨⟩ <;> first | rfl | exact absurd rfl (hf _)
    cases f with
    | outWr call =>
      have hwr : (s.pc c).writes = some call ∧ pc.writes = none := by
        revert hc
        cases s.pc c <;> rintro ⟨⟩ <;> exact ⟨rfl, rfl⟩
      exact h.closeOut ha hp hwr.1 hwr.2 hu (closes_forked hc)
    | _ => exact hmove (hw nofun)
  | readEnd c x hc => exact h.move (by rw [hc]; rfl) (by rw [hc]; rfl) nofun (Nat.le_refl _)
  | wait c x ch hc hch hexit =>
    have hw := h.children (n := x.call) (e := none) (.inl rfl) nofun
    refine ⟨fun n => ?_, hw.closed, fun d n hn => ?_, hw.later, hw.open_le, hw.closed_le, hw.fork_lt,
      fun d y hy => ?_, hw.child_writes⟩
    · refine (exists_congr fun d => ?_).trans (hw.writes n)
      by_cases hd : d = c
      · subst hd
        simp [hc, ExecPc.writes]
      · simp [hd]
    · have hd : d ≠ c := by
        rintro rfl
        simp [ExecPc.unopened] at hn
      exact hw.unopened d n (by simpa [hd] using hn)
    · have hd : d ≠ c := by
        rintro rfl
        simp [ExecPc.forked] at hy
      exact hw.own d y (by simpa [hd] using hy)
  | childExec call ch hch hready hexit =>
    have hw := h.children (n := call) (e := some { ch with table := childStdio ch.table ch.fds, ready := true })
      (.inr (by simp [hch])) (by
        rintro _ ⟨⟩ - k
        exact (((ht call ch hch).fresh hready hexit).writes_iff k).trans (h.child_writes call ch hch hexit k))
    exact ⟨hw.writes, hw.closed, hw.unopened, hw.later, hw.open_le, hw.closed_le, hw.fork_lt, hw.own,
      hw.child_writes⟩
  | childExit call ch hch hexit =>
    refine h.children (.inr (by simp [hch])) ?_
    rintro _ ⟨⟩ ⟨⟩
  | system =>
    exact ⟨h.writes, h.closed, h.unopened, h.later, fun n a hn => Nat.le_succ_of_le (h.open_le n a hn),
      fun n b hn => Nat.le_succ_of_le (h.closed_le n b hn), fun m ch hch => Nat.lt_succ_of_lt (h.fork_lt m ch hch),
      h.own, h.child_writes⟩
  | childFork | strayFork | strayExit | otherOpen | otherClose =>
    exact ⟨h.writes, h.closed, h.unopened, h.later, h.open_le, h.closed_le, h.fork_lt, h.own, h.child_writes⟩

/-- A fork that there has been stays during the calls that it was during. -/
theorem Windows.during_step (h : Windows s) (hs : Moved s s') (k : Nat) {no : Nat} (hno : no < s.forks) :
    During s'.outOpen s'.outClosed k no ↔ During s.outOpen s.outClosed k no := by
  cases hs with
  | pipeOut c call inRd inWr rd wr hc hrd hwr hne =>
    exact during_opened (h.unopened c call (by rw [hc]; rfl)) (.inr hno)
  | close c fd f pc hc =>
    cases f with
    | outWr call =>
      have hwr : (s.pc c).writes = some call := by
        revert hc
        cases s.pc c <;> rintro ⟨⟩ <;> rfl
      exact during_closed ((h.writes call).1 ⟨c, hwr⟩).2 hno
    | _ => exact Iff.rfl
  | _ => exact Iff.rfl

/-- A process that nobody waits for has the write ends of the calls that the fork it descends from was during. -/
structure StrayOk (s : ExecState Cmd) (p : Stray) : Prop where
  fork_lt : p.forkNo < s.forks
  writes : ∀ n, (∃ fd, p.table fd = some (.outWr n)) ↔ During s.outOpen s.outClosed n p.forkNo

def Strays (s : ExecState Cmd) : Prop := ∀ p ∈ s.strays, StrayOk s p

theorem moved_forks (hs : Moved s s') : s.forks ≤ s'.forks := by
  cases hs with
  | fork | system => exact Nat.le_succ _
  | _ => exact Nat.le_refl _

/-- The processes that a step leaves are as before, but for one that it begins. -/
theorem Strays.step (h : Strays s) (ha : Accounted s) (hw : Windows s) (hs : Moved s s') : Strays s' := by
  have hold : ∀ p, StrayOk s p → StrayOk s' p := fun p hp =>
    ⟨Nat.lt_of_lt_of_le hp.fork_lt (moved_forks hs), fun n => (hp.writes n).trans (hw.during_step hs n hp.fork_lt).symm⟩
  have hadd : ∀ p, StrayOk s' p → s'.strays = s.strays ++ [p] → Strays s' := by
    intro p hp heq q hq
    rw [heq, List.mem_append, List.mem_singleton] at hq
    rcases hq with hq | rfl
    · exact hold q (h q hq)
    · exact hp
  cases hs with
  | childFork call ch hch hexit =>
    exact hadd _ ⟨hw.fork_lt call ch hch, hw.child_writes call ch hch hexit⟩ rfl
  | system =>
    refine hadd _ ⟨Nat.lt_succ_self _, fun n => ?_⟩ rfl
    exact (ha.writes_iff n).trans ((hw.writes n).trans (hw.during_now n).symm)
  | strayFork p hp => exact hadd p (hold p (h p hp)) rfl
  | strayExit k => exact fun p hp => hold p (h p (List.mem_of_mem_eraseIdx hp))
  | _ => exact fun p hp => hold p (h p hp)

/-! ## All runs -/

structure Inv (s : ExecState Cmd) : Prop where
  accounted : Accounted s
  parented : Parented s
  tables : Tables s
  windows : Windows s
  strays : Strays s

theorem inv_reach (h : (machine Cmd).Reach s) : Inv s := by
  refine h.invariant ?_ ?_
  · rintro _ ⟨fds, hother, hstdio, rfl⟩
    have hpc : ∀ c : Cmd, (start fds).pc c = .idle := fun _ => rfl
    refine ⟨⟨.init fds, hother, hstdio, fun _ _ => nofun, fun _ _ _ => nofun, rfl⟩,
      ⟨fun _ _ => nofun, fun _ _ => nofun⟩, fun _ _ => nofun, ?_, fun _ => nofun⟩
    refine ⟨fun n => iff_of_false ?_ (by simp [start]), fun _ _ => rfl, fun _ _ => nofun, fun _ _ => rfl,
      fun _ _ => nofun, fun _ _ => nofun, fun _ _ => nofun, fun _ _ => nofun, fun _ _ => nofun⟩
    rintro ⟨c, hc⟩
    cases hc
  · intro s a s' hi hs
    have hm := moved hs
    have ha := hi.accounted.step (fun n ch hch hready hexit => (hi.tables n ch hch).closesOwn hready hexit) hm
    exact ⟨ha, hi.parented.step hi.accounted hm, hi.tables.step hi.accounted hm,
      hi.windows.step hi.accounted hi.parented hi.tables hm, hi.strays.step hi.accounted hi.windows hm⟩

/-- 0, 1 and 2. -/
def stdFds (fd : Nat) : Option FdFile := if fd ≤ 2 then some .other else none

theorem init_stdFds : (machine Cmd).init (start stdFds) := by
  refine ⟨stdFds, fun fd f hf => ?_, fun fd hfd => if_pos hfd, rfl⟩
  unfold stdFds at hf
  split at hf
  · exact (Option.some.inj hf).symm
  · cases hf

/-- Two calls, the second one's child forked while the pipe of the first is open. -/
def crossedRun : List (ExecStep Bool) :=
  [.pipeIn false (some (3, 4)), .pipeIn true (some (5, 6)), .pipeOut false (some (7, 8)), .pipeOut true (some (9, 10)),
    .fork true true, .fork false true, .close false, .close false, .close true, .close true, .childExec 0, .childExec 1,
    .childExit 0]

/-- A call that fails at `fork`, and one that fails at its second `pipe`. -/
def failingRun : List (ExecStep Bool) :=
  [.pipeIn false (some (3, 4)), .pipeIn true (some (5, 6)), .pipeOut false (some (7, 8)), .fork false false,
    .pipeOut true none, .close true, .close false, .close true, .close false, .close false, .close false]

/-- **No descriptor is left open and none is closed that is not the call's own**, on the failing paths as on the others;
and every child is waited for. -/
theorem execute_leaves_nothing (h : (machine Cmd).Reach s) :
    s.failed = false ∧ (∀ n ch, s.child n = some ch → ∃ c, (s.pc c).forked = some ch.fds ∧ ch.fds.call = n) ∧
    ((∀ c, s.pc c = .idle) → s.fds = s.others ∧ ∀ n, s.child n = none) := by
  have hi := inv_reach h
  have hchild : ∀ n ch, s.child n = some ch → ∃ c, (s.pc c).forked = some ch.fds ∧ ch.fds.call = n := by
    intro n ch hch
    obtain ⟨hcall, c, hc⟩ := hi.parented.child_pc n ch hch
    exact ⟨c, hc, hcall⟩
  refine ⟨hi.accounted.fine, hchild, fun hidle => ⟨?_, fun n => ?_⟩⟩
  · refine hi.accounted.accounts.settled fun c => ?_
    rw [hidle c]
    rfl
  · cases hn : s.child n with
    | none => rfl
    | some ch =>
      obtain ⟨c, hc, -⟩ := hchild n ch hn
      rw [hidle c] at hc
      cases hc

theorem execute_leaves_nothing_failing : ∃ s, (machine Bool).run (start stdFds) failingRun = some s ∧ s.calls = 2 ∧
    s.failed = false ∧ s.fds = s.others ∧ ∀ n, s.child n = none := by
  obtain ⟨s, hs, hv⟩ := Option.map_eq_some_iff.1 (show ((machine Bool).run (start stdFds) failingRun).map
    (fun s => (s.calls, s.pc false, s.pc true)) = some (2, .idle, .idle) by decide)
  simp only [Prod.mk.injEq] at hv
  obtain ⟨hcalls, hf, ht⟩ := hv
  obtain ⟨hfine, -, hend⟩ := execute_leaves_nothing (Machine.Reach.run (.init init_stdFds) hs)
  exact ⟨s, hs, hcalls, hfine, hend fun c => by cases c <;> assumption⟩

/-- **A child runs its command on its own pipes**, whatever the other calls have open. -/
theorem child_stdio (h : (machine Cmd).Reach s) {ch : ExecChild} (hch : s.child n = some ch) (hready : ch.ready = true)
    (hexit : ch.exited = false) :
    ch.table 0 = some (.inRd n) ∧ ch.table 1 = some (.outWr n) ∧ ch.table 2 = some (.outWr n) ∧
      ∀ fd, ch.table fd ≠ some (.inWr n) ∧ ch.table fd ≠ some (.outRd n) := by
  have hi := inv_reach h
  obtain ⟨rfl, -⟩ := hi.parented.child_pc n ch hch
  have hr := (hi.tables _ ch hch).running hready hexit
  exact ⟨hr.stdin, hr.stdout, hr.stderr, hr.parent_ends⟩

theorem child_stdio_crossed : ∃ s ch, (machine Bool).run (start stdFds) crossedRun = some s ∧ s.child 1 = some ch ∧
    ch.table 8 = some (.outWr 0) ∧ ch.table 1 = some (.outWr 1) := by
  obtain ⟨s, hs, hv⟩ := Option.map_eq_some_iff.1 (show ((machine Bool).run (start stdFds) crossedRun).map
    (fun s => (s.child 1).map fun ch => (ch.ready, ch.exited, ch.table 8)) =
      some (some (true, false, some (.outWr 0))) by decide)
  obtain ⟨ch, hch, hv⟩ := Option.map_eq_some_iff.1 hv
  simp only [Prod.mk.injEq] at hv
  obtain ⟨hready, hexit, h8⟩ := hv
  obtain ⟨-, hout, -⟩ := child_stdio (Machine.Reach.run (.init init_stdFds) hs) hch hready hexit
  exact ⟨s, ch, hs, hch, h8, hout⟩

/-- **When the output ends**: nobody can write to it any more exactly when every child has ended that was forked while
its pipe was open for writing, that of another call as well, and so has every other process that descends from such a
fork. -/
theorem output_ends_iff (h : (machine Cmd).Reach s) (hc : s.pc c = .reading x) :
    s.InWindow x.call x.call ∧
    (((∀ fd, s.fds fd ≠ some (.outWr x.call)) ∧
        (∀ m ch, s.child m = some ch → ∀ fd, ch.table fd ≠ some (.outWr x.call)) ∧
        ∀ p ∈ s.strays, ∀ fd, p.table fd ≠ some (.outWr x.call)) ↔
      (∀ m ch, s.child m = some ch → s.InWindow x.call m → ch.exited = true) ∧
        ∀ p ∈ s.strays, ¬ During s.outOpen s.outClosed x.call p.forkNo) := by
  have hi := inv_reach h
  refine ⟨hi.windows.own c x (by rw [hc]; rfl), ⟨fun ⟨_, hnone, hstray⟩ => ⟨fun m ch hch hw => ?_, fun p hp hd => ?_⟩,
    fun ⟨hall, hstray⟩ => ⟨hi.accounted.reading hc, fun m ch hch fd hfd => ?_, fun p hp fd hfd => ?_⟩⟩⟩
  · by_contra hexit
    obtain ⟨fd, hfd⟩ := (hi.windows.child_writes m ch hch (by simpa using hexit) x.call).2 hw
    exact hnone m ch hch fd hfd
  · obtain ⟨fd, hfd⟩ := ((hi.strays p hp).writes x.call).2 hd
    exact hstray p hp fd hfd
  · cases hexit : ch.exited with
    | false =>
      have hw := (hi.windows.child_writes m ch hch hexit x.call).1 ⟨fd, hfd⟩
      rw [hall m ch hch hw] at hexit
      cases hexit
    | true =>
      rw [(hi.tables m ch hch).gone hexit] at hfd
      cases hfd
  · exact hstray p hp (((hi.strays p hp).writes x.call).1 ⟨fd, hfd⟩)

/-- The child of the first call forks, and both children end. -/
def leftRun : List (ExecStep Bool) := crossedRun.dropLast ++ [.childFork 0, .childExit 0, .childExit 1]

/-- Both children have ended, and the output that the first command reads has not. -/
theorem output_ends_iff_left : ∃ s x, (machine Bool).run (start stdFds) leftRun = some s ∧
    s.pc false = .reading x ∧ (∀ m ch, m < 2 → s.child m = some ch → ch.exited = true) ∧
    ¬ ((∀ fd, s.fds fd ≠ some (.outWr x.call)) ∧
        (∀ m ch, s.child m = some ch → ∀ fd, ch.table fd ≠ some (.outWr x.call)) ∧
        ∀ p ∈ s.strays, ∀ fd, p.table fd ≠ some (.outWr x.call)) := by
  obtain ⟨s, hs, hv⟩ := Option.map_eq_some_iff.1 (show ((machine Bool).run (start stdFds) leftRun).map
    (fun s => (s.pc false, [(s.child 0).map ExecChild.exited, (s.child 1).map ExecChild.exited],
      s.strays.map Stray.forkNo, [s.outOpen 0, s.outClosed 0])) =
      some (.reading ⟨0, 3, 4, 7, 8⟩, [some true, some true], [1], [some 0, some 2]) by decide)
  simp only [Prod.mk.injEq, List.cons.injEq, and_true] at hv
  obtain ⟨hpc, ⟨h0, h1⟩, hstray, hopen, hclosed⟩ := hv
  refine ⟨s, _, hs, hpc, fun m ch hm hch => ?_, fun hnone => ?_⟩
  · have hm' : m = 0 ∨ m = 1 := by omega
    rcases hm' with rfl | rfl
    · rw [hch] at h0
      exact Option.some.inj h0
    · rw [hch] at h1
      exact Option.some.inj h1
  · obtain ⟨p, hp, hno⟩ : ∃ p ∈ s.strays, p.forkNo = 1 := by
      have hmem : 1 ∈ s.strays.map Stray.forkNo := by rw [hstray]; exact List.mem_singleton_self _
      exact List.mem_map.1 hmem
    obtain ⟨-, hends⟩ := output_ends_iff (Machine.Reach.run (.init init_stdFds) hs) hpc
    exact (hends.1 hnone).2 p hp ⟨0, hopen, Nat.zero_le _, by simp [hclosed, hno]⟩

end ExecState
end DevMgr
