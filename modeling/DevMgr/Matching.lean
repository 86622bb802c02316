import Mathlib.Data.List.Basic
import Mathlib.Data.List.Count
import Mathlib.Data.List.Perm.Basic
/-!
# Matching — giving each item of a list the first thing that fits it

`takeFirst p l` is the search of a list with the erasure of what it found.  `assign fits old ds` goes through `ds` and
gives each item the first thing of `old` that fits it and no item before it took.  Nothing here names a program.
-/
namespace Matching

universe u v

variable {ρ : Type u} {δ : Type v}

/-- The first element with `p`, and the list without it. -/
def takeFirst (p : ρ → Bool) : List ρ → Option (ρ × List ρ)
  | [] => none
  | r :: rs => if p r then some (r, rs) else (takeFirst p rs).map fun x => (x.1, r :: x.2)

/-- Each item with what it takes, and what nobody took. -/
def assign (fits : ρ → δ → Bool) : List ρ → List δ → List (δ × Option ρ) × List ρ
  | old, [] => ([], old)
  | old, d :: ds => match takeFirst (fits · d) old with
    | none => ((d, none) :: (assign fits old ds).1, (assign fits old ds).2)
    | some (r, old') => ((d, some r) :: (assign fits old' ds).1, (assign fits old' ds).2)

theorem takeFirst_none {p : ρ → Bool} : ∀ {l : List ρ}, takeFirst p l = none → ∀ r ∈ l, p r = false
  | [], _ => nofun
  | r :: rs, h => by
    rw [takeFirst] at h
    split at h
    · cases h
    · rename_i hr
      refine List.forall_mem_cons.2 ⟨by simpa using hr, takeFirst_none (Option.map_eq_none_iff.1 h)⟩

/-- **What is taken was in front of nothing else that has `p`.** -/
theorem takeFirst_some {p : ρ → Bool} : ∀ {l : List ρ} {r : ρ} {rest : List ρ}, takeFirst p l = some (r, rest) →
    p r = true ∧ ∃ l₁ l₂, l = l₁ ++ r :: l₂ ∧ rest = l₁ ++ l₂ ∧ ∀ x ∈ l₁, p x = false
  | [], _, _, h => by cases h
  | x :: xs, r, rest, h => by
    rw [takeFirst] at h
    split at h
    · rename_i hx
      cases h
      exact ⟨hx, [], xs, rfl, rfl, nofun⟩
    · rename_i hx
      obtain ⟨⟨y, l⟩, hy, he⟩ := Option.map_eq_some_iff.1 h
      cases he
      obtain ⟨h1, l₁, l₂, rfl, rfl, h2⟩ := takeFirst_some hy
      exact ⟨h1, x :: l₁, l₂, rfl, rfl, List.forall_mem_cons.2 ⟨by simpa using hx, h2⟩⟩

theorem takeFirst_perm {p : ρ → Bool} {l : List ρ} {r : ρ} {rest : List ρ} (h : takeFirst p l = some (r, rest)) :
    l.Perm (r :: rest) := by
  obtain ⟨-, l₁, l₂, rfl, rfl, -⟩ := takeFirst_some h
  exact List.perm_middle

theorem takeFirst_sublist {p : ρ → Bool} {l : List ρ} {r : ρ} {rest : List ρ} (h : takeFirst p l = some (r, rest)) :
    rest.Sublist l := by
  obtain ⟨-, l₁, l₂, rfl, rfl, -⟩ := takeFirst_some h
  exact List.Sublist.append_left (List.sublist_cons_self r l₂) l₁

variable {fits : ρ → δ → Bool}

/-- **An induction over the items**, each of which finds nothing that fits or takes the first thing that does. -/
theorem assign_induct (fits : ρ → δ → Bool) (P : List ρ → List δ → List (δ × Option ρ) → List ρ → Prop)
    (nil : ∀ old, P old [] [] old)
    (none : ∀ old d ds, takeFirst (fits · d) old = none → P old ds (assign fits old ds).1 (assign fits old ds).2 →
      P old (d :: ds) ((d, none) :: (assign fits old ds).1) (assign fits old ds).2)
    (some : ∀ old r rest d ds, takeFirst (fits · d) old = some (r, rest) →
      P rest ds (assign fits rest ds).1 (assign fits rest ds).2 →
      P old (d :: ds) ((d, some r) :: (assign fits rest ds).1) (assign fits rest ds).2) :
    ∀ (ds : List δ) (old : List ρ), P old ds (assign fits old ds).1 (assign fits old ds).2
  | [], old => nil old
  | d :: ds, old => by
    cases h : takeFirst (fits · d) old with
    | none =>
      rw [assign, h]
      exact none old d ds h (assign_induct fits P nil none some ds old)
    | some x =>
      rw [assign, h]
      exact some old x.1 x.2 d ds h (assign_induct fits P nil none some ds x.2)

/-- One more item that nothing left fits. -/
theorem assign_concat_none {d : δ} : ∀ {ds : List δ} {old : List ρ},
    takeFirst (fits · d) (assign fits old ds).2 = none →
    assign fits old (ds ++ [d]) = ((assign fits old ds).1 ++ [(d, none)], (assign fits old ds).2)
  | [], old, h => by
    rw [assign] at h
    simp only [List.nil_append, assign, h]
  | e :: ds, old, h => by
    rw [List.cons_append, assign, assign]
    rw [assign] at h
    split at h
    · rw [assign_concat_none h]
      rfl
    · rw [assign_concat_none h]
      rfl

/-- One more item that takes something. -/
theorem assign_concat_some {d : δ} {r : ρ} {rest : List ρ} : ∀ {ds : List δ} {old : List ρ},
    takeFirst (fits · d) (assign fits old ds).2 = some (r, rest) →
    assign fits old (ds ++ [d]) = ((assign fits old ds).1 ++ [(d, some r)], rest)
  | [], old, h => by
    rw [assign] at h
    simp only [List.nil_append, assign, h]
  | e :: ds, old, h => by
    rw [List.cons_append, assign, assign]
    rw [assign] at h
    split at h
    · rw [assign_concat_some h]
      rfl
    · rw [assign_concat_some h]
      rfl

theorem assign_items (fits : ρ → δ → Bool) (ds : List δ) (old : List ρ) : (assign fits old ds).1.map Prod.fst = ds := by
  refine assign_induct fits (fun _ ds as _ => as.map Prod.fst = ds) ?_ ?_ ?_ ds old
  · exact fun _ => rfl
  · exact fun old d ds _ ih => by rw [List.map_cons, ih]
  · exact fun old r rest d ds _ ih => by rw [List.map_cons, ih]

/-- **Everything is taken once or left.** -/
theorem assign_perm (fits : ρ → δ → Bool) (ds : List δ) (old : List ρ) :
    old.Perm ((assign fits old ds).1.filterMap Prod.snd ++ (assign fits old ds).2) := by
  refine assign_induct fits (fun old _ as rest => old.Perm (as.filterMap Prod.snd ++ rest)) ?_ ?_ ?_ ds
    old
  · exact fun old => .refl old
  · exact fun old d ds _ ih => ih
  · exact fun old r rest d ds h ih => (takeFirst_perm h).trans (ih.cons r)

theorem assign_fits {ds : List δ} {old : List ρ} {d : δ} {r : ρ} (h : (d, some r) ∈ (assign fits old ds).1) :
    fits r d = true := by
  revert d r
  refine assign_induct fits (fun _ _ as _ => ∀ {d r}, (d, some r) ∈ as → fits r d = true) ?_ ?_ ?_ ds old
  · exact fun _ => nofun
  · intro old d ds _ ih d' r' hm
    exact ih ((List.mem_cons.1 hm).resolve_left (by simp))
  · intro old r rest d ds h ih d' r' hm
    rcases List.mem_cons.1 hm with he | hm
    · cases he
      exact (takeFirst_some h).1
    · exact ih hm

theorem assign_sublist (fits : ρ → δ → Bool) (ds : List δ) (old : List ρ) : (assign fits old ds).2.Sublist old := by
  refine assign_induct fits (fun old _ _ rest => rest.Sublist old) ?_ ?_ ?_ ds old
  · exact fun old => .refl old
  · exact fun old d ds _ ih => ih
  · exact fun old r rest d ds h ih => ih.trans (takeFirst_sublist h)

/-- **Where no two things fit one item, nothing that fits an item is left.** -/
theorem assign_left : ∀ {ds : List δ} {old : List ρ},
    (∀ d ∈ ds, old.Pairwise fun r r' => ¬ (fits r d = true ∧ fits r' d = true)) →
    ∀ r ∈ (assign fits old ds).2, ∀ d ∈ ds, fits r d = false := by
  intro ds old
  refine assign_induct fits (fun old ds _ rest =>
    (∀ d ∈ ds, old.Pairwise fun r r' => ¬ (fits r d = true ∧ fits r' d = true)) →
      ∀ r ∈ rest, ∀ d ∈ ds, fits r d = false) ?_ ?_ ?_ ds old
  · exact fun _ _ _ _ _ => nofun
  · intro old d ds hn ih hu r hr d' hd'
    rcases List.mem_cons.1 hd' with rfl | hd'
    · exact takeFirst_none hn r ((assign_sublist fits ds old).subset hr)
    · exact ih (fun x hx => hu x (List.mem_cons_of_mem d hx)) r hr d' hd'
  · intro old r rest d ds h ih hu x hx d' hd'
    rcases List.mem_cons.1 hd' with rfl | hd'
    · have hp := (takeFirst_perm h).pairwise_iff (fun {a b} hab hba => hab hba.symm) |>.1 (hu d' List.mem_cons_self)
      have hne := (List.pairwise_cons.1 hp).1 x ((assign_sublist fits ds rest).subset hx)
      rw [← Bool.not_eq_true]
      exact fun hx' => hne ⟨(takeFirst_some h).1, hx'⟩
    · exact ih (fun y hy => (hu y (List.mem_cons_of_mem d hy)).sublist (takeFirst_sublist h)) x hx d' hd'

/-! ## Matching by a key -/

section
variable {κ : Type u} [DecidableEq κ] (key : ρ → κ)

theorem count_key_zero {k : κ} {old : List ρ} (h : ∀ r ∈ old, decide (key r = k) = false) :
    (old.map key).count k = 0 := by
  rw [List.count_eq_zero]
  intro hm
  obtain ⟨r, hr, he⟩ := List.mem_map.1 hm
  exact absurd he (of_decide_eq_false (h r hr))

/-- **One to one**: as many things of a key are taken as there are things and items of it. -/
theorem count_assign (k : κ) (ds : List κ) (old : List ρ) :
    (((assign (fun r d => decide (key r = d)) old ds).1.filterMap Prod.snd).map key).count k =
      min ((old.map key).count k) (ds.count k) := by
  refine assign_induct (fun r d => decide (key r = d))
    (fun old ds as _ => ((as.filterMap Prod.snd).map key).count k = min ((old.map key).count k) (ds.count k))
    ?_ ?_ ?_ ds old
  · intro old
    simp
  · intro old d ds hn ih
    by_cases hk : d = k
    · subst hk
      have h0 := count_key_zero key (takeFirst_none hn)
      rw [List.filterMap_cons_none rfl, ih, h0, Nat.zero_min, Nat.zero_min]
    · rw [List.filterMap_cons_none rfl, ih, List.count_cons_of_ne hk]
  · intro old r rest d ds h ih
    have hr : key r = d := of_decide_eq_true (takeFirst_some h).1
    simp only [List.filterMap_cons, List.map_cons, ((takeFirst_perm h).map key).count_eq, hr]
    by_cases hk : d = k
    · subst hk
      rw [List.count_cons_self, List.count_cons_self, List.count_cons_self, ih, Nat.add_min_add_right]
    · rw [List.count_cons_of_ne hk, List.count_cons_of_ne hk, List.count_cons_of_ne hk, ih]

/-- What is left of a key is what there is more of it than items. -/
theorem count_left (k : κ) (ds : List κ) (old : List ρ) :
    ((assign (fun r d => decide (key r = d)) old ds).2.map key).count k = (old.map key).count k - ds.count k := by
  have h := ((assign_perm (fun r d => decide (key r = d)) ds old).map key).count_eq k
  rw [List.map_append, List.count_append, count_assign] at h
  omega

/-- The items that take nothing are those there are more of than things. -/
theorem count_untaken (k : κ) (ds : List κ) (old : List ρ) :
    (((assign (fun r d => decide (key r = d)) old ds).1.filter (·.2.isNone)).map Prod.fst).count k =
      ds.count k - (old.map key).count k := by
  refine assign_induct (fun r d => decide (key r = d))
    (fun old ds as _ =>
    ((as.filter (·.2.isNone)).map Prod.fst).count k = ds.count k - (old.map key).count k) ?_ ?_ ?_ ds old
  · intro old
    simp
  · intro old d ds hn ih
    rw [List.filter_cons_of_pos (by rfl), List.map_cons]
    by_cases hk : d = k
    · subst hk
      have h0 := count_key_zero key (takeFirst_none hn)
      rw [List.count_cons_self, List.count_cons_self, ih, h0]
      rfl
    · rw [List.count_cons_of_ne hk, List.count_cons_of_ne hk, ih]
  · intro old r rest d ds h ih
    have hr : key r = d := of_decide_eq_true (takeFirst_some h).1
    rw [List.filter_cons_of_neg (by simp), ih, ((takeFirst_perm h).map key).count_eq, List.map_cons, hr]
    by_cases hk : d = k
    · subst hk
      rw [List.count_cons_self, List.count_cons_self, Nat.add_sub_add_right]
    · rw [List.count_cons_of_ne hk, List.count_cons_of_ne hk]

end

end Matching
