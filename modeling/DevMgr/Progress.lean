import DevMgr.Machine
/-!
# Progress — runs that a rank bounds, and the end they come to

A predicate `p` of labels marks the steps that count.  When no allowed step raises the rank and those that count lower
it, a run has no more of them than the rank it starts from; when one of them is enabled until a goal is met, they alone
lead there.
-/
namespace Machines
namespace Machine

universe u v

variable {σ : Type u} {α : Type v} {M : Machine σ α} {ok : σ → α → Prop} {p : α → Bool} {I G : σ → Prop}
  {rank : σ → Nat}

/-- What the allowed steps keep, and how they move the rank. -/
structure Descends (M : Machine σ α) (ok : σ → α → Prop) (p : α → Bool) (I : σ → Prop) (rank : σ → Nat) : Prop where
  keeps : ∀ s a s', I s → ok s a → M.step s a = some s' → I s'
  rank_le : ∀ s a s', I s → ok s a → M.step s a = some s' → rank s' ≤ rank s
  rank_lt : ∀ s a s', I s → ok s a → p a = true → M.step s a = some s' → rank s' < rank s

/-- Until the goal is met a step that counts can be taken. -/
def Offers (M : Machine σ α) (ok : σ → α → Prop) (p : α → Bool) (I G : σ → Prop) : Prop :=
  ∀ s, I s → ¬ G s → ∃ a s', p a = true ∧ ok s a ∧ M.step s a = some s'

section
variable [∀ s a, Decidable (ok s a)]

theorem Descends.runWhen (hd : Descends M ok p I rank) {as : List α} : ∀ {s s' : σ}, I s →
    M.runWhen ok s as = some s' → I s' := by
  induction as with
  | nil =>
    intro s s' hi hr
    cases hr
    exact hi
  | cons a as ih =>
    intro s s' hi hr
    obtain ⟨hok, t, ht, hr⟩ := runWhen_cons.1 hr
    exact ih (hd.keeps s a t hi hok ht) hr

/-- **A run has at most as many steps that count as its first state has rank.** -/
theorem Descends.countP_le (hd : Descends M ok p I rank) {as : List α} : ∀ {s s' : σ}, I s →
    M.runWhen ok s as = some s' → as.countP p + rank s' ≤ rank s := by
  induction as with
  | nil =>
    intro s s' _ hr
    cases hr
    simp
  | cons a as ih =>
    intro s s' hi hr
    obtain ⟨hok, t, ht, hr⟩ := runWhen_cons.1 hr
    have hrest := ih (hd.keeps s a t hi hok ht) hr
    by_cases hp : p a = true
    · have hlt := hd.rank_lt s a t hi hok hp ht
      rw [List.countP_cons_of_pos hp]
      omega
    · have hle := hd.rank_le s a t hi hok ht
      rw [List.countP_cons_of_neg hp]
      omega

/-- **Steps that count lead to the goal.** -/
theorem Descends.exists_runWhen (hd : Descends M ok p I rank) (hp : Offers M ok p I G) : ∀ (n : Nat) {s : σ},
    rank s ≤ n → I s → ∃ as s', M.runWhen ok s as = some s' ∧ G s' ∧ ∀ a ∈ as, p a = true := by
  intro n
  induction n with
  | zero =>
    intro s hn hi
    by_cases hg : G s
    · exact ⟨[], s, rfl, hg, by simp⟩
    · obtain ⟨a, t, hpa, hok, ht⟩ := hp s hi hg
      have hlt := hd.rank_lt s a t hi hok hpa ht
      omega
  | succ n ih =>
    intro s hn hi
    by_cases hg : G s
    · exact ⟨[], s, rfl, hg, by simp⟩
    · obtain ⟨a, t, hpa, hok, ht⟩ := hp s hi hg
      have hlt := hd.rank_lt s a t hi hok hpa ht
      obtain ⟨as, s', hr, hg', hall⟩ := ih (by omega) (hd.keeps s a t hi hok ht)
      refine ⟨a :: as, s', ?_, hg', ?_⟩
      · exact runWhen_cons.2 ⟨hok, t, ht, hr⟩
      · simpa [hpa] using hall

end

end Machine
end Machines
