import Mathlib.Data.List.TakeDrop
/-!
# Memory — what stands at an address

A memory is a function of the address.  `load` reads a stretch of it and `store` writes one; what is read after a store
is what was written, what was there, or the one in the other.  Nothing here names a program.
-/
namespace Memory

universe u

variable {β : Type u}

def load (m : Nat → β) (a n : Nat) : List β := (List.range n).map fun i => m (a + i)

def store (m : Nat → β) (a : Nat) (bs : List β) : Nat → β :=
  fun x => if a ≤ x then bs[x - a]?.getD (m x) else m x

@[simp] theorem length_load (m : Nat → β) (a n : Nat) : (load m a n).length = n := by
  rw [load, List.length_map, List.length_range]

@[simp] theorem load_zero (m : Nat → β) (a : Nat) : load m a 0 = [] := rfl

theorem getElem_load (m : Nat → β) (a n : Nat) {i : Nat} (h : i < (load m a n).length) :
    (load m a n)[i] = m (a + i) := by
  simp [load]

theorem load_add (m : Nat → β) (a n k : Nat) : load m a (n + k) = load m a n ++ load m (a + n) k := by
  rw [load, List.range_add, List.map_append, List.map_map]
  refine congrArg (load m a n ++ ·) (List.map_congr_left fun i _ => ?_)
  rw [Function.comp_apply, Nat.add_assoc]

theorem load_congr {m m' : Nat → β} {a a' n : Nat} (h : ∀ i, i < n → m (a + i) = m' (a' + i)) :
    load m a n = load m' a' n :=
  List.map_congr_left fun i hi => h i (List.mem_range.1 hi)

/-- Stretches with the same contents have the same contents inside. -/
theorem load_inside {m m' : Nat → β} {a a' n : Nat} (h : load m a n = load m' a' n) {k j : Nat} (hk : k + j ≤ n) :
    load m (a + k) j = load m' (a' + k) j := by
  obtain ⟨r, rfl⟩ := Nat.exists_eq_add_of_le hk
  rw [load_add, load_add, load_add, load_add] at h
  have hl := (List.append_inj h (by simp)).1
  exact (List.append_inj hl (by simp)).2

theorem take_load (m : Nat → β) (a n k : Nat) : (load m a n).take k = load m a (min k n) := by
  rw [load, ← List.map_take, List.take_range, load]

theorem drop_load (m : Nat → β) (a : Nat) {n k : Nat} (h : k ≤ n) : (load m a n).drop k = load m (a + k) (n - k) := by
  obtain ⟨r, rfl⟩ := Nat.exists_eq_add_of_le h
  rw [load_add, List.drop_left' (length_load m a k), Nat.add_sub_cancel_left]

section
variable {m : Nat → β} {a b n : Nat} {bs : List β}

theorem store_inside {i : Nat} (h : i < bs.length) : store m a bs (a + i) = bs[i] := by
  rw [store, if_pos (Nat.le_add_right a i), Nat.add_sub_cancel_left, List.getElem?_eq_getElem h, Option.getD_some]

theorem store_outside {x : Nat} (h : x < a ∨ a + bs.length ≤ x) : store m a bs x = m x := by
  rw [store]
  split
  · rw [List.getElem?_eq_none (by omega), Option.getD_none]
  · rfl

/-- **What was stored is there.** -/
theorem load_store (m : Nat → β) (a : Nat) (bs : List β) : load (store m a bs) a bs.length = bs := by
  apply List.ext_getElem
  · rw [length_load]
  · intro i _ hi
    rw [getElem_load, store_inside hi]

/-- **A store elsewhere changes nothing.** -/
theorem load_store_apart (h : a + n ≤ b ∨ b + bs.length ≤ a) : load (store m b bs) a n = load m a n :=
  load_congr fun i hi => store_outside (by omega)

/-- **A store inside** replaces as many as it writes. -/
theorem load_store_within {k : Nat} (h : k + bs.length ≤ n) : load (store m (a + k) bs) a n =
    (load m a n).take k ++ bs ++ (load m a n).drop (k + bs.length) := by
  obtain ⟨r, rfl⟩ := Nat.exists_eq_add_of_le h
  rw [take_load, Nat.min_eq_left (by omega), drop_load m a (by omega), Nat.add_sub_cancel_left]
  rw [load_add, load_add, load_store, load_store_apart (.inl (Nat.le_refl _)), load_store_apart (.inr (by omega))]

/-- **A block that has grown**: what was copied from the old one, and the rest of the new one. -/
theorem load_grown {r : Nat} (hapart : b + bs.length ≤ a ∨ a + r ≤ b) (hr : r ≤ bs.length) :
    load (store (store m b bs) b (load (store m b bs) a r)) b bs.length = load m a r ++ bs.drop r := by
  have hcopy : load (store m b bs) a r = load m a r := load_store_apart hapart.symm
  have hwithin : load (store (store m b bs) (b + 0) (load m a r)) b bs.length = _ := load_store_within (by simpa)
  rw [Nat.add_zero, load_store] at hwithin
  rw [hcopy, hwithin, List.take_zero, List.nil_append, Nat.zero_add, length_load]

end

end Memory
