import DevMgr.Machine
/-!
# Watcher — a thread that sleeps until something has changed

The changes of something are numbered.  A watcher sleeps on a semaphore, and looks at the thing once it is woken; who
changes the thing posts to the watcher afterwards, and owes the post until then.  `seen` is how many changes there had
been when the watcher last began to look.  Whatever the order of the changes, the posts and the looks, a watcher that
sleeps while nothing is posted or owed has seen the last change.

A poller is a watcher that does nothing else: it looks each time it is woken, until it is told to quit.
-/
namespace Watchers

/-- `awake` from the taking of a token to the next look. -/
structure Watcher where
  sem : Nat
  awake : Bool
  seen : Nat
  deriving DecidableEq, Repr

namespace Watcher

def post (w : Watcher) : Watcher := { w with sem := w.sem + 1 }

def take (w : Watcher) : Option Watcher := if 0 < w.sem then some { w with sem := w.sem - 1, awake := true } else none

def look (w : Watcher) (news : Nat) : Watcher := { w with awake := false, seen := news }

/-- The watcher has seen the last of the `news`, or it will look, or it is to be posted to. -/
def Told (w : Watcher) (news : Nat) (owed : Prop) : Prop := news ≤ w.seen ∨ 0 < w.sem ∨ w.awake = true ∨ owed

variable {w w' : Watcher} {news : Nat} {owed owed' : Prop}

@[simp] theorem post_seen (w : Watcher) : w.post.seen = w.seen := rfl

@[simp] theorem look_seen (w : Watcher) (news : Nat) : (w.look news).seen = news := rfl

theorem take_seen (h : w.take = some w') : w'.seen = w.seen := by
  obtain ⟨-, rfl⟩ := Machines.guard_some h
  rfl

theorem Told.post (w : Watcher) (news : Nat) (owed : Prop) : w.post.Told news owed := .inr (.inl (Nat.succ_pos _))

theorem Told.due (w : Watcher) (news : Nat) (h : owed) : w.Told news owed := .inr (.inr (.inr h))

theorem Told.take (h : w.take = some w') (news : Nat) (owed : Prop) : w'.Told news owed := by
  obtain ⟨-, rfl⟩ := Machines.guard_some h
  exact .inr (.inr (.inl rfl))

theorem Told.look {n : Nat} (h : news ≤ n) (w : Watcher) (owed : Prop) : (w.look n).Told news owed := .inl h

theorem Told.mono (h : w.Told news owed) (ho : owed → owed') : w.Told news owed' :=
  h.imp_right (Or.imp_right (Or.imp_right ho))

/-- **A watcher that sleeps, with nothing posted or owed, has seen the last change.** -/
theorem Told.rest (h : w.Told news owed) (h0 : w.sem = 0) (ha : w.awake = false) (ho : ¬ owed) : news ≤ w.seen := by
  rcases h with h | h | h | h
  · exact h
  · omega
  · rw [ha] at h
    cases h
  · exact absurd h ho

end Watcher

/-- Where the thread of a poller is: in `sem_wait`, before its test of the flag, in its look, or over. -/
inductive PollPc where
  | waiting
  | woken
  | working
  | stopped
  deriving DecidableEq, Repr

structure Poller extends Watcher where
  pc : PollPc
  quit : Bool
  deriving DecidableEq, Repr

/-- `fail` is a wait that returns without a token. -/
inductive PollStep where
  | take
  | fail
  | test
  | done
  | quit
  deriving DecidableEq, Repr

namespace Poller

def start (sem : Nat) : Poller := { sem := sem, awake := false, seen := 0, pc := .waiting, quit := false }

def post (p : Poller) : Poller := { p with toWatcher := p.toWatcher.post }

def step (p : Poller) (news : Nat) : PollStep → Option Poller
  | .take => if p.pc = .waiting then p.toWatcher.take.map fun w => { p with toWatcher := w, pc := .woken } else none
  | .fail => if p.pc = .waiting then some { p with pc := .woken } else none
  | .test => if p.pc = .woken then
      if p.quit = true then some { p with pc := .stopped }
      else some { p with toWatcher := p.toWatcher.look news, pc := .working } else none
  | .done => if p.pc = .working then some { p with pc := .waiting } else none
  | .quit => some { p with quit := true }

variable {p p' : Poller} {news : Nat} {a : PollStep} {owed : Prop}

/-- It is awake only in front of its test, or once it has stopped. -/
def Dozes (p : Poller) : Prop := p.pc = .waiting ∨ p.pc = .working → p.awake = false

theorem Dozes.step (h : p.Dozes) (hs : p.step news a = some p') : p'.Dozes := by
  cases a with
  | take =>
    obtain ⟨-, ht⟩ := Option.ite_none_right_eq_some.1 hs
    obtain ⟨w, -, rfl⟩ := Option.map_eq_some_iff.1 ht
    rintro (hp | hp) <;> cases hp
  | fail =>
    obtain ⟨-, rfl⟩ := Machines.guard_some hs
    rintro (hp | hp) <;> cases hp
  | test =>
    obtain ⟨-, ht⟩ := Option.ite_none_right_eq_some.1 hs
    split at ht
    · cases ht
      rintro (hp | hp) <;> cases hp
    · cases ht
      exact fun _ => rfl
  | done =>
    obtain ⟨hp, rfl⟩ := Machines.guard_some hs
    exact fun _ => h (.inr hp)
  | quit =>
    cases hs
    exact h

theorem seen_le (h : p.seen ≤ news) (hs : p.step news a = some p') : p'.seen ≤ news := by
  cases a with
  | take =>
    obtain ⟨-, ht⟩ := Option.ite_none_right_eq_some.1 hs
    obtain ⟨w, hw, rfl⟩ := Option.map_eq_some_iff.1 ht
    exact (Watcher.take_seen hw).trans_le h
  | fail =>
    obtain ⟨-, rfl⟩ := Machines.guard_some hs
    exact h
  | test =>
    obtain ⟨-, ht⟩ := Option.ite_none_right_eq_some.1 hs
    split at ht
    · cases ht
      exact h
    · cases ht
      exact Nat.le_refl _
  | done =>
    obtain ⟨-, rfl⟩ := Machines.guard_some hs
    exact h
  | quit =>
    cases hs
    exact h

/-- **No step of the poller makes it miss a change**; what it looks at may be newer than what it was told of. -/
theorem told_step {told : Nat} (h : p.Told told owed) (hle : told ≤ news) (hs : p.step news a = some p') :
    p'.Told told owed := by
  cases a with
  | take =>
    obtain ⟨-, ht⟩ := Option.ite_none_right_eq_some.1 hs
    obtain ⟨w, hw, rfl⟩ := Option.map_eq_some_iff.1 ht
    exact .take hw told owed
  | fail =>
    obtain ⟨-, rfl⟩ := Machines.guard_some hs
    exact h
  | test =>
    obtain ⟨-, ht⟩ := Option.ite_none_right_eq_some.1 hs
    split at ht
    · cases ht
      exact h
    · cases ht
      exact .look hle _ _
  | done =>
    obtain ⟨-, rfl⟩ := Machines.guard_some hs
    exact h
  | quit =>
    cases hs
    exact h

/-- **What a sleeping poller knows.** -/
theorem rest (h : p.Told news owed) (hd : p.Dozes) (hp : p.pc = .waiting) (h0 : p.sem = 0) (ho : ¬ owed) :
    news ≤ p.seen :=
  h.rest h0 (hd (.inl hp)) ho

end Poller
end Watchers
