import Mathlib.Data.List.Perm.Basic
import Mathlib.Logic.Function.Basic
/-!
# Ledger — a table of open things, and who has each

`table` says what is open at each key.  Some of it is in use by others, `base`; of the rest every entry is on the list
of one holder, `held`.  A holder that opens a thing at a free key, or closes one of its own, keeps the account.  When
nobody holds anything, nothing but `base` is open.
-/
namespace Ledgers

universe u v w

variable {κ : Type u} {ν : Type v} {ι : Type w}

structure Accounts (table base : κ → Option ν) (held : ι → List (κ × ν)) : Prop where
  base_open : ∀ k v, base k = some v → table k = some v
  held_open : ∀ i k v, (k, v) ∈ held i → table k = some v
  held_new : ∀ i k v, (k, v) ∈ held i → base k = none
  owner : ∀ k v, table k = some v → base k = some v ∨ ∃ i, (k, v) ∈ held i
  alone : ∀ i j k v w, (k, v) ∈ held i → (k, w) ∈ held j → i = j
  nodup : ∀ i, ((held i).map Prod.fst).Nodup

namespace Accounts

variable {table base : κ → Option ν} {held held' : ι → List (κ × ν)} {i : ι} {k : κ} {v : ν}

theorem init (table : κ → Option ν) : Accounts table table fun _ : ι => [] where
  base_open _ _ h := h
  held_open _ _ _ h := by cases h
  held_new _ _ _ h := by cases h
  owner _ _ h := .inl h
  alone _ _ _ _ _ h := by cases h
  nodup _ := List.nodup_nil

theorem congr (h : Accounts table base held) (he : ∀ j, held' j = held j) : Accounts table base held' := by
  obtain rfl : held' = held := funext he
  exact h

/-- Nothing is open but what others use. -/
theorem settled (h : Accounts table base held) (hn : ∀ i, held i = []) : table = base := by
  funext k
  cases ht : table k with
  | some v =>
    rcases h.owner k v ht with hb | ⟨i, hi⟩
    · exact hb.symm
    · simp [hn] at hi
  | none =>
    cases hb : base k with
    | none => rfl
    | some v =>
      rw [h.base_open k v hb] at ht
      cases ht

variable [DecidableEq κ]

/-- **A holder opens a thing** at a free key. -/
theorem take (h : Accounts table base held) (hk : table k = none) (hi : (held' i).Perm ((k, v) :: held i))
    (hj : ∀ j, j ≠ i → held' j = held j) : Accounts (Function.update table k (some v)) base held' := by
  have hbase : base k = none := by
    cases hb : base k with
    | none => rfl
    | some w =>
      rw [h.base_open k w hb] at hk
      cases hk
  have hfree : ∀ j w, (k, w) ∉ held j := by
    intro j w hm
    rw [h.held_open j k w hm] at hk
    cases hk
  have hmem : ∀ j x w, (x, w) ∈ held' j → (j = i ∧ x = k ∧ w = v) ∨ (x ≠ k ∧ (x, w) ∈ held j) := by
    intro j x w hm
    have hold : (x, w) ∈ held j → x ≠ k ∧ (x, w) ∈ held j := by
      refine fun hm => ⟨?_, hm⟩
      rintro rfl
      exact hfree j w hm
    by_cases hji : j = i
    · subst hji
      rcases List.mem_cons.1 (hi.subset hm) with he | hm
      · exact .inl ⟨rfl, congrArg Prod.fst he, congrArg Prod.snd he⟩
      · exact .inr (hold hm)
    · rw [hj j hji] at hm
      exact .inr (hold hm)
  constructor
  · intro x w hb
    have hne : x ≠ k := by
      rintro rfl
      rw [hbase] at hb
      cases hb
    rw [Function.update_of_ne hne]
    exact h.base_open x w hb
  · intro j x w hm
    rcases hmem j x w hm with ⟨-, rfl, rfl⟩ | ⟨hne, hm⟩
    · exact Function.update_self ..
    · rw [Function.update_of_ne hne]
      exact h.held_open j x w hm
  · intro j x w hm
    rcases hmem j x w hm with ⟨-, rfl, -⟩ | ⟨-, hm⟩
    · exact hbase
    · exact h.held_new j x w hm
  · intro x w ht
    by_cases hx : x = k
    · subst hx
      rw [Function.update_self] at ht
      cases ht
      exact .inr ⟨i, hi.symm.subset (by simp)⟩
    · rw [Function.update_of_ne hx] at ht
      rcases h.owner x w ht with hb | ⟨j, hm⟩
      · exact .inl hb
      · by_cases hji : j = i
        · subst hji
          exact .inr ⟨j, hi.symm.subset (by simp [hm])⟩
        · exact .inr ⟨j, by rwa [hj j hji]⟩
  · intro j j' x w w' hm hm'
    rcases hmem j x w hm with ⟨rfl, rfl, -⟩ | ⟨hne, hm⟩
    · rcases hmem j' x w' hm' with ⟨rfl, -, -⟩ | ⟨hne, -⟩
      · rfl
      · exact absurd rfl hne
    · rcases hmem j' x w' hm' with ⟨-, rfl, -⟩ | ⟨-, hm'⟩
      · exact absurd rfl hne
      · exact h.alone j j' x w w' hm hm'
  · intro j
    by_cases hji : j = i
    · subst hji
      have hperm := hi.map Prod.fst
      rw [hperm.nodup_iff, List.map_cons, List.nodup_cons]
      refine ⟨?_, h.nodup j⟩
      intro hm
      obtain ⟨⟨x, w⟩, hxw, rfl⟩ := List.mem_map.1 hm
      exact hfree j w hxw
    · rw [hj j hji]
      exact h.nodup j

/-- **A holder closes a thing of its own.** -/
theorem give (h : Accounts table base held) (hi : (held i).Perm ((k, v) :: held' i))
    (hj : ∀ j, j ≠ i → held' j = held j) : Accounts (Function.update table k none) base held' := by
  have hk : (k, v) ∈ held i := hi.symm.subset (by simp)
  have hnodup : k ∉ (held' i).map Prod.fst ∧ ((held' i).map Prod.fst).Nodup := by
    have hn := h.nodup i
    rw [(hi.map Prod.fst).nodup_iff, List.map_cons, List.nodup_cons] at hn
    exact hn
  have hmem : ∀ j x w, (x, w) ∈ held' j → x ≠ k ∧ (x, w) ∈ held j := by
    intro j x w hm
    by_cases hji : j = i
    · subst hji
      refine ⟨?_, hi.symm.subset (by simp [hm])⟩
      rintro rfl
      exact hnodup.1 (List.mem_map.2 ⟨(x, w), hm, rfl⟩)
    · rw [hj j hji] at hm
      refine ⟨?_, hm⟩
      rintro rfl
      exact hji (h.alone j i x w v hm hk)
  constructor
  · intro x w hb
    have hne : x ≠ k := by
      rintro rfl
      rw [h.held_new i x v hk] at hb
      cases hb
    rw [Function.update_of_ne hne]
    exact h.base_open x w hb
  · intro j x w hm
    obtain ⟨hne, hm⟩ := hmem j x w hm
    rw [Function.update_of_ne hne]
    exact h.held_open j x w hm
  · intro j x w hm
    exact h.held_new j x w (hmem j x w hm).2
  · intro x w ht
    by_cases hx : x = k
    · subst hx
      rw [Function.update_self] at ht
      cases ht
    · rw [Function.update_of_ne hx] at ht
      rcases h.owner x w ht with hb | ⟨j, hm⟩
      · exact .inl hb
      · refine .inr ⟨j, ?_⟩
        by_cases hji : j = i
        · subst hji
          rcases List.mem_cons.1 (hi.subset hm) with he | hm
          · exact absurd (congrArg Prod.fst he) hx
          · exact hm
        · rwa [hj j hji]
  · intro j j' x w w' hm hm'
    exact h.alone j j' x w w' (hmem j x w hm).2 (hmem j' x w' hm').2
  · intro j
    by_cases hji : j = i
    · subst hji
      exact hnodup.2
    · rw [hj j hji]
      exact h.nodup j

/-- **A holder gives a thing of its own to another.** -/
theorem pass (h : Accounts table base held) {j : ι} (hij : i ≠ j) (hi : (held i).Perm ((k, v) :: held' i))
    (hj : (held' j).Perm ((k, v) :: held j)) (hrest : ∀ l, l ≠ i → l ≠ j → held' l = held l) :
    Accounts table base held' := by
  classical
  have hk : table k = some v := h.held_open i k v (hi.symm.subset (by simp))
  have hgive : Accounts (Function.update table k none) base (Function.update held i (held' i)) :=
    h.give (by simpa using hi) fun l hl => Function.update_of_ne hl ..
  have htake : Accounts (Function.update (Function.update table k none) k (some v)) base held' :=
    hgive.take (i := j) (Function.update_self ..) (by rw [Function.update_of_ne hij.symm]; exact hj) fun l hl => by
      by_cases hli : l = i
      · subst hli
        rw [Function.update_self]
      · rw [Function.update_of_ne hli]
        exact hrest l hli hl
  rwa [Function.update_idem, ← hk, Function.update_eq_self] at htake

/-- What others open. -/
theorem baseTake (h : Accounts table base held) (hk : table k = none) :
    Accounts (Function.update table k (some v)) (Function.update base k (some v)) held := by
  have hfree : ∀ j w, (k, w) ∉ held j := by
    intro j w hm
    rw [h.held_open j k w hm] at hk
    cases hk
  have hne : ∀ j x w, (x, w) ∈ held j → x ≠ k := by
    rintro j x w hm rfl
    exact hfree j w hm
  refine ⟨?_, ?_, ?_, ?_, h.alone, h.nodup⟩
  · intro x w hb
    by_cases hx : x = k
    · subst hx
      simpa using hb
    · simp only [Function.update_of_ne hx] at hb ⊢
      exact h.base_open x w hb
  · intro j x w hm
    rw [Function.update_of_ne (hne j x w hm)]
    exact h.held_open j x w hm
  · intro j x w hm
    rw [Function.update_of_ne (hne j x w hm)]
    exact h.held_new j x w hm
  · intro x w ht
    by_cases hx : x = k
    · subst hx
      exact .inl (by simpa using ht)
    · simp only [Function.update_of_ne hx] at ht ⊢
      exact h.owner x w ht

/-- What others close. -/
theorem baseGive (h : Accounts table base held) (hk : base k ≠ none) :
    Accounts (Function.update table k none) (Function.update base k none) held := by
  have hne : ∀ j x w, (x, w) ∈ held j → x ≠ k := by
    rintro j x w hm rfl
    exact hk (h.held_new j x w hm)
  refine ⟨?_, ?_, ?_, ?_, h.alone, h.nodup⟩
  · intro x w hb
    by_cases hx : x = k
    · subst hx
      simp at hb
    · simp only [Function.update_of_ne hx] at hb ⊢
      exact h.base_open x w hb
  · intro j x w hm
    rw [Function.update_of_ne (hne j x w hm)]
    exact h.held_open j x w hm
  · intro j x w hm
    rw [Function.update_of_ne (hne j x w hm)]
    exact h.held_new j x w hm
  · intro x w ht
    by_cases hx : x = k
    · subst hx
      simp at ht
    · simp only [Function.update_of_ne hx] at ht ⊢
      exact h.owner x w ht

end Accounts
end Ledgers
