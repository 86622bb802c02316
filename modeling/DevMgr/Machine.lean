import Mathlib.Data.Fintype.BigOperators
import Mathlib.Logic.Function.Basic
/-!
# Machine — labelled machines, their runs and their invariants

A machine is a predicate of initial states and a partial step function; a label carries every choice the scheduler, the
kernel or a peer makes, so a step is a function of it.  Runs are lists of labels.  `ReachWhen ok` are the states of the
runs whose steps all satisfy `ok`, a condition on the state before the step and its label; `Reach` are those of all
runs.  Nothing here names a program.
-/
namespace Machines

universe u v

/-- A machine: its initial states, and its step, which refuses a label that is not enabled. -/
structure Machine (σ : Type u) (α : Type v) where
  init : σ → Prop
  step : σ → α → Option σ

namespace Machine

variable {σ : Type u} {α : Type v} (M : Machine σ α)

/-- The state after a list of labels, when all of them are enabled in turn. -/
def run (s : σ) : List α → Option σ
  | [] => some s
  | a :: as => (M.step s a).bind fun s' => run s' as

/-- The state after a list of labels that are enabled and satisfy `ok` in turn. -/
def runWhen (ok : σ → α → Prop) [∀ s a, Decidable (ok s a)] (s : σ) : List α → Option σ
  | [] => some s
  | a :: as => if ok s a then (M.step s a).bind fun s' => runWhen ok s' as else none

/-- The states of the runs whose steps all satisfy `ok`. -/
inductive ReachWhen (ok : σ → α → Prop) : σ → Prop
  | init {s : σ} : M.init s → ReachWhen ok s
  | step {s s' : σ} {a : α} : ReachWhen ok s → ok s a → M.step s a = some s' → ReachWhen ok s'

/-- The states of all runs. -/
def Reach : σ → Prop := M.ReachWhen fun _ _ => True

/-- `s'` is the state after some run from `s`. -/
def After (s s' : σ) : Prop := ∃ as, M.run s as = some s'

variable {M}

theorem run_cons (s : σ) (a : α) (as : List α) : M.run s (a :: as) = (M.step s a).bind fun s' => M.run s' as := rfl

theorem run_append (bs : List α) : ∀ (as : List α) (s : σ),
    M.run s (as ++ bs) = (M.run s as).bind fun s' => M.run s' bs
  | [], _ => rfl
  | a :: as, s => by
    rw [List.cons_append, run_cons, run_cons, Option.bind_assoc]
    exact congrArg _ (funext fun t => run_append bs as t)

theorem Reach.init {s : σ} (h : M.init s) : M.Reach s := ReachWhen.init h

theorem Reach.step {s s' : σ} {a : α} (h : M.Reach s) (hs : M.step s a = some s') : M.Reach s' :=
  ReachWhen.step h trivial hs

theorem ReachWhen.reach {ok : σ → α → Prop} {s : σ} (h : M.ReachWhen ok s) : M.Reach s := by
  induction h with
  | init h => exact .init h
  | step _ _ hs ih => exact ih.step hs

theorem ReachWhen.imp {ok ok' : σ → α → Prop} (himp : ∀ s a, ok s a → ok' s a) {s : σ} (h : M.ReachWhen ok s) :
    M.ReachWhen ok' s := by
  induction h with
  | init h => exact .init h
  | step _ hok hs ih => exact ih.step (himp _ _ hok) hs

theorem runWhen_cons {ok : σ → α → Prop} [∀ s a, Decidable (ok s a)] {s s' : σ} {a : α} {as : List α} :
    M.runWhen ok s (a :: as) = some s' ↔ ok s a ∧ ∃ t, M.step s a = some t ∧ M.runWhen ok t as = some s' := by
  rw [Machine.runWhen]
  by_cases hok : ok s a
  · rw [if_pos hok, Option.bind_eq_some_iff]
    exact (and_iff_right hok).symm
  · rw [if_neg hok]
    exact ⟨fun h => (by cases h), fun h => absurd h.1 hok⟩

theorem ReachWhen.runWhen {ok : σ → α → Prop} [∀ s a, Decidable (ok s a)] : ∀ {as : List α} {s s' : σ},
    M.ReachWhen ok s → M.runWhen ok s as = some s' → M.ReachWhen ok s'
  | [], s, s', h, hr => Option.some.inj hr ▸ h
  | a :: as, s, s', h, hr => by
    obtain ⟨hok, t, ht, hr⟩ := runWhen_cons.1 hr
    exact (h.step hok ht).runWhen hr

/-- A run of labels that are allowed in every state. -/
theorem ReachWhen.run {ok : σ → α → Prop} : ∀ {as : List α} {s s' : σ}, M.ReachWhen ok s →
    (∀ a ∈ as, ∀ s, ok s a) → M.run s as = some s' → M.ReachWhen ok s'
  | [], _, _, h, _, hr => Option.some.inj hr ▸ h
  | a :: as, _, _, h, hok, hr => by
    rw [run_cons] at hr
    obtain ⟨t, ht, hr⟩ := Option.bind_eq_some_iff.1 hr
    exact (h.step (hok a List.mem_cons_self _) ht).run (fun b hb => hok b (List.mem_cons_of_mem a hb)) hr

/-- **The invariant rule**: what holds initially and every allowed step keeps holds in every state of the allowed
runs. -/
theorem ReachWhen.invariant {ok : σ → α → Prop} {I : σ → Prop} (h0 : ∀ s, M.init s → I s)
    (hstep : ∀ s a s', I s → ok s a → M.step s a = some s' → I s') {s : σ} (h : M.ReachWhen ok s) : I s := by
  induction h with
  | init h => exact h0 _ h
  | step _ hok hs ih => exact hstep _ _ _ ih hok hs

theorem Reach.invariant {I : σ → Prop} (h0 : ∀ s, M.init s → I s)
    (hstep : ∀ s a s', I s → M.step s a = some s' → I s') {s : σ} (h : M.Reach s) : I s :=
  ReachWhen.invariant h0 (fun s a s' hi _ hs => hstep s a s' hi hs) h

theorem Reach.run {as : List α} {s s' : σ} (h : M.Reach s) (hr : M.run s as = some s') : M.Reach s' :=
  ReachWhen.run h (fun _ _ _ => trivial) hr

theorem Reach.after {s s' : σ} (h : M.Reach s) (ha : M.After s s') : M.Reach s' := by
  obtain ⟨as, hr⟩ := ha
  exact h.run hr

theorem After.refl (s : σ) : M.After s s := ⟨[], rfl⟩

theorem After.head {s t u : σ} {a : α} (hs : M.step s a = some t) (h : M.After t u) : M.After s u := by
  obtain ⟨as, hr⟩ := h
  exact ⟨a :: as, by rw [run_cons, hs]; exact hr⟩

theorem After.trans {s t u : σ} (h : M.After s t) (h' : M.After t u) : M.After s u := by
  obtain ⟨as, hr⟩ := h
  induction as generalizing s with
  | nil =>
    cases hr
    exact h'
  | cons a as ih =>
    rw [run_cons] at hr
    obtain ⟨v, hv, hr⟩ := Option.bind_eq_some_iff.1 hr
    exact .head hv (ih hr)

/-- **What a step keeps exactly when it satisfies `ok`, a run keeps exactly when all its steps do.** -/
theorem run_keeps_iff {ok : σ → α → Prop} [∀ s a, Decidable (ok s a)] {P : σ → Prop}
    (hstep : ∀ s a s', M.step s a = some s' → (P s' ↔ P s ∧ ok s a)) {as : List α} :
    ∀ {s s' : σ}, M.run s as = some s' → (P s' ↔ P s ∧ M.runWhen ok s as = some s') := by
  induction as with
  | nil =>
    intro s s' hr
    cases hr
    exact (and_iff_left rfl).symm
  | cons a as ih =>
    intro s s' hr
    rw [run_cons] at hr
    obtain ⟨t, ht, hr⟩ := Option.bind_eq_some_iff.1 hr
    rw [ih hr, hstep s a t ht, and_assoc, Machine.runWhen]
    by_cases hok : ok s a
    · rw [if_pos hok, ht, Option.bind_some]
      simp only [hok, true_and]
    · rw [if_neg hok]
      simp only [hok, false_and, reduceCtorEq]

/-- **What every step of a reachable state can only move one way, every run from it does.** -/
theorem Reach.monotone {R : σ → σ → Prop} (hrefl : ∀ s, R s s) (htrans : ∀ a b c, R a b → R b c → R a c)
    (hstep : ∀ s a s', M.Reach s → M.step s a = some s' → R s s') {s s' : σ} (h : M.Reach s) (ha : M.After s s') :
    R s s' := by
  obtain ⟨as, hr⟩ := ha
  induction as generalizing s with
  | nil => cases hr; exact hrefl _
  | cons a as ih =>
    rw [run_cons] at hr
    obtain ⟨t, ht, hr⟩ := Option.bind_eq_some_iff.1 hr
    exact htrans s t s' (hstep s a t h ht) (ih (h.step ht) hr)

end Machine

/-! ## Guards and pointwise updates of a state -/

/-- A step taken under a guard. -/
theorem guard_some {σ : Type u} {p : Prop} [Decidable p] {s s' : σ} (h : (if p then some s else none) = some s') :
    p ∧ s = s' := by
  split at h
  · exact ⟨‹p›, Option.some.inj h⟩
  · cases h

/-- A two-argument table changed at one place. -/
def upd₂ {ι : Type u} {κ : Type v} {β : Type*} [DecidableEq ι] [DecidableEq κ] (f : ι → κ → β) (i : ι) (k : κ) (v : β) :
    ι → κ → β :=
  fun j l => if j = i ∧ l = k then v else f j l

section
variable {ι : Type u} {κ : Type v} {β : Type*} [DecidableEq ι] [DecidableEq κ]

@[simp] theorem upd₂_self (f : ι → κ → β) (i : ι) (k : κ) (v : β) : upd₂ f i k v i k = v := by simp [upd₂]

theorem upd₂_apply (f : ι → κ → β) (i : ι) (k : κ) (v : β) (j : ι) (l : κ) :
    upd₂ f i k v j l = if j = i ∧ l = k then v else f j l := rfl

theorem upd₂_of_ne (f : ι → κ → β) (i : ι) (k : κ) (v : β) {j : ι} {l : κ} (h : ¬ (j = i ∧ l = k)) :
    upd₂ f i k v j l = f j l := if_neg h

end

/-- **Two tables that agree off one place have sums that differ by that place's terms.** -/
theorem sum_change {ι : Type u} {β : Type v} [Fintype ι] [DecidableEq ι] {f f' : ι → β} (g : ι → β → Nat) (i : ι)
    (h : ∀ x, x ≠ i → f' x = f x) : (∑ x, g x (f' x)) + g i (f i) = (∑ x, g x (f x)) + g i (f' i) := by
  have hrest : ∑ x ∈ {i}ᶜ, g x (f' x) = ∑ x ∈ {i}ᶜ, g x (f x) :=
    Finset.sum_congr rfl fun x hx => by rw [h x (by simpa using hx)]
  rw [Fintype.sum_eq_add_sum_compl i, Fintype.sum_eq_add_sum_compl i (fun x => g x (f x)), hrest]
  omega

theorem sum_update {ι : Type u} {β : Type v} [Fintype ι] [DecidableEq ι] {f f' : ι → β} (g : ι → β → Nat) {i : ι}
    {b : β} (h : f' = Function.update f i b) : (∑ x, g x (f' x)) + g i (f i) = (∑ x, g x (f x)) + g i b := by
  have hsum := sum_change g i fun x hx => show f' x = f x by rw [h, Function.update_of_ne hx]
  rwa [h, Function.update_self, ← h] at hsum

/-- A table of two indices with one of them in a finite set. -/
theorem upd₂_restrict {ι : Type u} {κ : Type v} {β : Type*} [DecidableEq ι] [DecidableEq κ] (f : ι → κ → β) {i : ι}
    {is : Finset ι} (hi : i ∈ is) (k : κ) (v : β) : (fun x : is × κ => upd₂ f i k v x.1 x.2) =
      Function.update (fun x : is × κ => f x.1 x.2) (⟨i, hi⟩, k) v := by
  funext ⟨⟨j, hj⟩, l⟩
  by_cases h : j = i ∧ l = k
  · obtain ⟨rfl, rfl⟩ := h
    rw [Function.update_self, upd₂_self]
  · rw [Function.update_of_ne fun he => h (by cases he; exact ⟨rfl, rfl⟩)]
    exact upd₂_of_ne f i k v h

end Machines
