import DevMgr.Progress
/-!
# LockOrder — locks that are taken in the order of a rank

Threads `τ` take and give back locks `κ`.  Each runs one call after another, and a call is the list of its operations on
the locks, its `trace`.  Where every lock has a rank, and every call takes a lock only while all it holds are below that
one, no set of threads can wait for each other.

`Safe lo p` says this of a piece of code that may be called while locks below `lo` are held; it composes along the
structure of the code, so that a call's trace is shown safe as it is written.
-/
namespace LockOrders

open Machines

universe u v w

inductive LockOp (κ : Type u) where
  | lock (k : κ)
  | unlock (k : κ)
  deriving DecidableEq, Repr

/-- A piece of code under a lock. -/
def within {κ : Type u} (k : κ) (p : List (LockOp κ)) : List (LockOp κ) := .lock k :: (p ++ [.unlock k])

/-- A loop under a lock that gives it back for each of its calls. -/
def yielding {κ : Type u} (k : κ) (calls : List (List (LockOp κ))) : List (LockOp κ) :=
  .lock k :: ((calls.flatMap fun p => .unlock k :: (p ++ [.lock k])) ++ [.unlock k])

/-! ## Code that keeps the order -/

section
variable {κ : Type u} [DecidableEq κ] {rank : κ → Nat} {held : List κ} {lo lo' : Nat} {k : κ}
  {p q : List (LockOp κ)}

/-- The operations are in order for a thread that holds `held`, and leave it with nothing. -/
def Ordered (rank : κ → Nat) : List κ → List (LockOp κ) → Prop
  | held, [] => held = []
  | held, .lock k :: p => (∀ h ∈ held, rank h < rank k) ∧ Ordered rank (k :: held) p
  | held, .unlock k :: p => k ∈ held ∧ Ordered rank (held.erase k) p

/-- The code may be run while locks of a rank below `lo` are held, and holds what it held before once it is over. -/
def Safe (rank : κ → Nat) (lo : Nat) (p : List (LockOp κ)) : Prop :=
  ∀ held rest, (∀ h ∈ held, rank h < lo) → Ordered rank held rest → Ordered rank held (p ++ rest)

theorem Safe.nil : Safe rank lo [] := fun _ _ _ h => h

theorem Safe.append (hp : Safe rank lo p) (hq : Safe rank lo q) : Safe rank lo (p ++ q) := by
  intro held rest hlo h
  rw [List.append_assoc]
  exact hp held _ hlo (hq held rest hlo h)

theorem Safe.mono (h : lo ≤ lo') (hp : Safe rank lo' p) : Safe rank lo p :=
  fun held rest hlo hr => hp held rest (fun x hx => Nat.lt_of_lt_of_le (hlo x hx) h) hr

theorem Safe.flatMap {α : Type v} {xs : List α} {f : α → List (LockOp κ)} (h : ∀ x ∈ xs, Safe rank lo (f x)) :
    Safe rank lo (xs.flatMap f) := by
  induction xs with
  | nil => exact .nil
  | cons x xs ih =>
    rw [List.flatMap_cons]
    exact (h x (by simp)).append (ih fun y hy => h y (by simp [hy]))

theorem Safe.ite {c : Prop} [Decidable c] (hp : c → Safe rank lo p) (hq : ¬ c → Safe rank lo q) :
    Safe rank lo (if c then p else q) := by
  split
  · exact hp ‹_›
  · exact hq ‹_›

/-- A lock given back right after it is taken again. -/
theorem ordered_unlock_head {rest : List (LockOp κ)} (h : Ordered rank held rest) :
    Ordered rank (k :: held) (.unlock k :: rest) := by
  refine ⟨by simp, ?_⟩
  rw [List.erase_cons_head]
  exact h

/-- **A lock may be taken above what is held**, around code that takes only locks above it. -/
theorem Safe.within (hk : lo ≤ rank k) (hp : Safe rank (rank k + 1) p) : Safe rank lo (within k p) := by
  intro held rest hlo h
  have hbelow : ∀ x ∈ held, rank x < rank k := fun x hx => Nat.lt_of_lt_of_le (hlo x hx) hk
  have hin : Ordered rank (k :: held) (p ++ (.unlock k :: rest)) := by
    refine hp (k :: held) _ ?_ (ordered_unlock_head h)
    intro x hx
    rcases List.mem_cons.1 hx with rfl | hx
    · exact Nat.lt_succ_self _
    · exact Nat.lt_succ_of_lt (hbelow x hx)
  unfold LockOrders.within
  rw [List.cons_append, List.append_assoc, List.singleton_append]
  exact ⟨hbelow, hin⟩

/-- **A lock that is given back around calls** leaves them free to take what they could take without it. -/
theorem Safe.yielding {calls : List (List (LockOp κ))} (hk : lo ≤ rank k) (hp : ∀ p ∈ calls, Safe rank lo p) :
    Safe rank lo (yielding k calls) := by
  intro held rest hlo h
  have hbelow : ∀ x ∈ held, rank x < rank k := fun x hx => Nat.lt_of_lt_of_le (hlo x hx) hk
  have hloop : ∀ calls : List (List (LockOp κ)), (∀ p ∈ calls, Safe rank lo p) → Ordered rank (k :: held)
      ((calls.flatMap fun p => .unlock k :: (p ++ [.lock k])) ++ (.unlock k :: rest)) := by
    intro calls
    induction calls with
    | nil => exact fun _ => ordered_unlock_head h
    | cons p calls ih =>
      intro hp
      have hrest := ih fun q hq => hp q (by simp [hq])
      have hcall := hp p (by simp) held (.lock k :: _) hlo ⟨hbelow, hrest⟩
      simp only [List.flatMap_cons, List.cons_append, List.append_assoc, List.nil_append] at hcall ⊢
      exact ordered_unlock_head hcall
  unfold LockOrders.yielding
  rw [List.cons_append, List.append_assoc, List.singleton_append]
  exact ⟨hbelow, hloop calls hp⟩

end

/-! ## Threads that run such calls -/

structure LockState (κ : Type u) (τ : Type v) where
  holder : κ → Option τ
  rest : τ → List (LockOp κ)

/-- A thread that is in no call begins one; or it does its next operation. -/
inductive LockStep (τ : Type v) (α : Type w) where
  | begin (t : τ) (call : α)
  | op (t : τ)

namespace LockState

variable {κ : Type u} {τ : Type v} {α : Type w} [DecidableEq κ] [DecidableEq τ]

def step (trace : α → List (LockOp κ)) (s : LockState κ τ) : LockStep τ α → Option (LockState κ τ)
  | .begin t call => if s.rest t = [] then some { s with rest := Function.update s.rest t (trace call) } else none
  | .op t => match s.rest t with
    | [] => none
    | .lock k :: p => if s.holder k = none then
        some { holder := Function.update s.holder k (some t), rest := Function.update s.rest t p } else none
    | .unlock k :: p => if s.holder k = some t then
        some { holder := Function.update s.holder k none, rest := Function.update s.rest t p } else none

def idle : LockState κ τ := ⟨fun _ => none, fun _ => []⟩

def machine (trace : α → List (LockOp κ)) : Machine (LockState κ τ) (LockStep τ α) where
  init s := s = idle
  step := step trace

/-- What each thread holds, and that the rest of its call is in order for it. -/
structure Inv (rank : κ → Nat) (s : LockState κ τ) (held : τ → List κ) : Prop where
  held_iff : ∀ t k, s.holder k = some t ↔ k ∈ held t
  nodup : ∀ t, (held t).Nodup
  ordered : ∀ t, Ordered rank (held t) (s.rest t)

variable {trace : α → List (LockOp κ)} {rank : κ → Nat} {s s' : LockState κ τ} {held : τ → List κ} {t : τ}

theorem Inv.begin (h : Inv rank s held) (htrace : ∀ call, Safe rank 0 (trace call)) (call : α) (ht : s.rest t = []) :
    Inv rank { s with rest := Function.update s.rest t (trace call) } held where
  held_iff := h.held_iff
  nodup := h.nodup
  ordered u := by
    by_cases hu : u = t
    · subst hu
      have hnone : held u = [] := by
        have := h.ordered u
        rw [ht] at this
        exact this
      have hs := htrace call [] [] (by simp) rfl
      rw [List.append_nil] at hs
      simpa [hnone] using hs
    · simpa [hu] using h.ordered u

theorem Inv.lock (h : Inv rank s held) {k : κ} {p : List (LockOp κ)} (ht : s.rest t = .lock k :: p)
    (hk : s.holder k = none) :
    Inv rank { holder := Function.update s.holder k (some t), rest := Function.update s.rest t p }
      (Function.update held t (k :: held t)) where
  held_iff u x := by
    have hu := h.held_iff u x
    by_cases hx : x = k
    · subst hx
      have hfree : ∀ v, x ∉ held v := by
        intro v hv
        rw [(h.held_iff v x).2 hv] at hk
        cases hk
      by_cases hut : u = t
      · simp [hut]
      · simp [hut, Ne.symm hut, hfree]
    · by_cases hut : u = t
      · subst hut
        simp [hx, hu]
      · simp [hx, hut, hu]
  nodup u := by
    have hn : k ∉ held t := by
      intro hm
      rw [(h.held_iff t k).2 hm] at hk
      cases hk
    by_cases hut : u = t
    · subst hut
      simpa using ⟨hn, h.nodup u⟩
    · simpa [hut] using h.nodup u
  ordered u := by
    by_cases hut : u = t
    · subst hut
      have := h.ordered u
      rw [ht] at this
      simpa using this.2
    · simpa [hut] using h.ordered u

theorem Inv.unlock (h : Inv rank s held) {k : κ} {p : List (LockOp κ)} (ht : s.rest t = .unlock k :: p)
    (hk : s.holder k = some t) :
    Inv rank { holder := Function.update s.holder k none, rest := Function.update s.rest t p }
      (Function.update held t ((held t).erase k)) where
  held_iff u x := by
    have hu := h.held_iff u x
    by_cases hx : x = k
    · subst hx
      by_cases hut : u = t
      · subst hut
        simp [(h.nodup u).not_mem_erase]
      · have hn : x ∉ held u := by
          intro hm
          rw [(h.held_iff u x).2 hm] at hk
          exact hut (Option.some.inj hk)
        simp [hut, hn]
    · by_cases hut : u = t
      · subst hut
        simp [hx, hu, List.mem_erase_of_ne hx]
      · simp [hx, hut, hu]
  nodup u := by
    by_cases hut : u = t
    · subst hut
      simpa using (h.nodup u).erase k
    · simpa [hut] using h.nodup u
  ordered u := by
    by_cases hut : u = t
    · subst hut
      have := h.ordered u
      rw [ht] at this
      simpa using this.2
    · simpa [hut] using h.ordered u

theorem Inv.step (h : Inv rank s held) (htrace : ∀ call, Safe rank 0 (trace call)) {a : LockStep τ α}
    (hs : step trace s a = some s') : ∃ held', Inv rank s' held' := by
  cases a with
  | begin t call =>
    obtain ⟨ht, rfl⟩ := guard_some hs
    exact ⟨held, h.begin htrace call ht⟩
  | op t =>
    simp only [LockState.step] at hs
    split at hs
    · cases hs
    · obtain ⟨hk, rfl⟩ := guard_some hs
      exact ⟨_, h.lock ‹_› hk⟩
    · obtain ⟨hk, rfl⟩ := guard_some hs
      exact ⟨_, h.unlock ‹_› hk⟩

theorem inv_reach (htrace : ∀ call, Safe rank 0 (trace call))
    (h : (machine trace : Machine (LockState κ τ) _).Reach s) :
    ∃ held, Inv rank s held := by
  refine h.invariant (I := fun s => ∃ held, Inv rank s held) ?_ ?_
  · rintro _ rfl
    exact ⟨fun _ => [], fun _ _ => by simp [idle], fun _ => List.nodup_nil, fun _ => rfl⟩
  · rintro s a s' ⟨held, hi⟩ hs
    exact hi.step htrace hs

/-- A thread that waits for a lock: along the holders of ever higher ranks there is one that goes on. -/
theorem Inv.holder_goes (trace : α → List (LockOp κ)) (h : Inv rank s held) {n : Nat} (hn : ∀ k, rank k < n) :
    ∀ (m : Nat) {t : τ} {k : κ} {p : List (LockOp κ)}, s.rest t = .lock k :: p → n - rank k ≤ m →
    ∃ u s', LockState.step trace s (.op u) = some s' := by
  intro m
  induction m with
  | zero =>
    intro t k p _ hm
    have := hn k
    omega
  | succ m ih =>
    intro t k p ht hm
    cases hk : s.holder k with
    | none => exact ⟨t, _, by simp only [LockState.step, ht]; exact if_pos hk⟩
    | some u =>
      have hmem : k ∈ held u := (h.held_iff u k).1 hk
      have hord := h.ordered u
      cases hu : s.rest u with
      | nil =>
        rw [hu] at hord
        rw [show held u = [] from hord] at hmem
        cases hmem
      | cons o p' =>
        rw [hu] at hord
        cases o with
        | lock k' =>
          have hlt := hord.1 k hmem
          have hk' := hn k'
          exact ih hu (by omega)
        | unlock k' =>
          have hheld := (h.held_iff u k').2 hord.1
          exact ⟨u, _, by simp only [LockState.step, hu]; exact if_pos hheld⟩

/-- **No deadlock**: while a thread is in a call, some thread goes on. -/
theorem Inv.goes (trace : α → List (LockOp κ)) (h : Inv rank s held) {n : Nat} (hn : ∀ k, rank k < n)
    (ht : s.rest t ≠ []) :
    ∃ u s', LockState.step trace s (.op u) = some s' := by
  obtain ⟨o, p, ho⟩ := List.exists_cons_of_ne_nil ht
  cases o with
  | lock k => exact h.holder_goes trace hn _ ho (Nat.le_refl _)
  | unlock k =>
    have hord := h.ordered t
    rw [ho] at hord
    have hheld := (h.held_iff t k).2 hord.1
    exact ⟨t, _, by simp only [LockState.step, ho]; exact if_pos hheld⟩

/-- The steps of the calls that have begun. -/
def OnlyOps (_ : LockState κ τ) (a : LockStep τ α) : Prop := ∀ t call, a ≠ .begin t call

instance (s : LockState κ τ) (a : LockStep τ α) : Decidable (OnlyOps s a) :=
  match a with
  | .begin t call => isFalse fun h => h t call rfl
  | .op _ => isTrue fun _ _ => nofun

variable [Fintype τ]

/-- How many operations the calls have left. -/
def left (s : LockState κ τ) : Nat := ∑ t, (s.rest t).length

omit [DecidableEq κ] in
theorem left_update {o : LockOp κ} {p : List (LockOp κ)} (ht : s.rest t = o :: p)
    (h : s'.rest = Function.update s.rest t p) : s'.left < s.left := by
  have heq : ∀ x, x ≠ t → s'.rest x = s.rest x := fun x hx => by rw [h, Function.update_of_ne hx]
  have hsum := sum_change (fun _ q => List.length q) t heq
  rw [h, Function.update_self, ht, List.length_cons] at hsum
  rw [← h] at hsum
  unfold left
  omega

theorem descends (htrace : ∀ call, Safe rank 0 (trace call)) :
    Machine.Descends (machine trace : Machine (LockState κ τ) (LockStep τ α)) OnlyOps (fun _ => true)
      (fun s => ∃ held, Inv rank s held) left := by
  have hlt : ∀ (s : LockState κ τ) (a : LockStep τ α) s', OnlyOps s a → step trace s a = some s' →
      s'.left < s.left := by
    intro s a s' hok hs
    cases a with
    | begin t call => exact absurd rfl (hok t call)
    | op t =>
      simp only [LockState.step] at hs
      split at hs
      · cases hs
      · obtain ⟨-, rfl⟩ := guard_some hs
        exact left_update ‹_› rfl
      · obtain ⟨-, rfl⟩ := guard_some hs
        exact left_update ‹_› rfl
  exact {
    keeps := fun s a s' hi _ hs => by
      obtain ⟨held, hi⟩ := hi
      exact hi.step htrace hs
    rank_le := fun s a s' _ hok hs => Nat.le_of_lt (hlt s a s' hok hs)
    rank_lt := fun s a s' _ hok _ hs => hlt s a s' hok hs }

/-- **Every call returns**: the calls that have begun can be run to their ends, and whatever the order they are run in
they take no more steps than they have operations left. -/
theorem calls_return (htrace : ∀ call, Safe rank 0 (trace call)) {n : Nat} (hn : ∀ k, rank k < n)
    (h : (machine trace : Machine (LockState κ τ) (LockStep τ α)).Reach s) {as : List (LockStep τ α)}
    (hr : (machine trace).runWhen OnlyOps s as = some s') :
    as.length ≤ s.left ∧ ∃ bs t, (machine trace).runWhen OnlyOps s' bs = some t ∧ ∀ u, t.rest u = [] := by
  have hd := descends (τ := τ) htrace
  have hi := inv_reach htrace h
  have hi' := hd.runWhen hi hr
  refine ⟨?_, ?_⟩
  · have hle := hd.countP_le hi hr
    rw [List.countP_true] at hle
    omega
  · have hoffers : Machine.Offers (machine trace : Machine (LockState κ τ) (LockStep τ α)) OnlyOps (fun _ => true)
        (fun s => ∃ held, Inv rank s held) fun s => ∀ u, s.rest u = [] := by
      rintro s ⟨held, hi⟩ hne
      obtain ⟨t, ht⟩ := not_forall.1 hne
      obtain ⟨u, s', hs⟩ := hi.goes trace hn ht
      exact ⟨.op u, s', rfl, fun _ _ => nofun, hs⟩
    obtain ⟨bs, t, hbs, ht, -⟩ := hd.exists_runWhen hoffers _ (Nat.le_refl _) hi'
    exact ⟨bs, t, hbs, ht⟩

end LockState
end LockOrders
