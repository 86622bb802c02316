import Mathlib.Data.List.Chain
import Mathlib.Data.List.Nodup
import Mathlib.Logic.Function.Basic
/-!
# ListHead — circular lists threaded through their nodes

A memory of nodes with a `next` and a `prev` link each, and the operations of `list.h` on it.  `Ring m head l` says that
from `head` the links go through the nodes `l`, all different, and back to `head`.  Every operation on a ring is the
list's; a walk with enough steps left ends.  Nothing here names a program.
-/
namespace ListHeads

universe u v

/-- The links of all nodes. -/
structure Links (α : Type u) where
  next : α → α
  prev : α → α

namespace Links

variable {α : Type u} [DecidableEq α]

/-- `INIT_LIST_HEAD`. -/
def initListHead (m : Links α) (ptr : α) : Links α :=
  { next := Function.update m.next ptr ptr, prev := Function.update m.prev ptr ptr }

/-- `__list_add`. -/
def listAddBetween (m : Links α) (new prev next : α) : Links α :=
  { next := Function.update (Function.update m.next new next) prev new
    prev := Function.update (Function.update m.prev next new) new prev }

def listAddTail (m : Links α) (new head : α) : Links α := m.listAddBetween new (m.prev head) head

/-- `__list_del`. -/
def listDelBetween (m : Links α) (prev next : α) : Links α :=
  { next := Function.update m.next prev next, prev := Function.update m.prev next prev }

def listDel (m : Links α) (poison1 poison2 entry : α) : Links α :=
  let m' := m.listDelBetween (m.prev entry) (m.next entry)
  { next := Function.update m'.next entry poison1, prev := Function.update m'.prev entry poison2 }

/-- `list_for_each_entry` from `pos`, left by the `break` at the first node that satisfies `p`; its `pos` is the
head when there is none. -/
def findFrom (m : Links α) (head : α) (p : α → Bool) : Nat → α → Option α
  | 0, _ => none
  | fuel + 1, pos => if pos = head then some head else if p pos then some pos else findFrom m head p fuel (m.next pos)

end Links

variable {α : Type u} [DecidableEq α]

/-- `list_for_each_entry_safe` over the links of a state, from `pos` with `n` read before the body. -/
def forEachSafe {σ : Type v} (links : σ → Links α) (body : σ → α → σ) (head : α) : Nat → σ → α → α → Option σ
  | 0, _, _, _ => none
  | fuel + 1, s, pos, n => if pos = head then some s
    else forEachSafe links body head fuel (body s pos) n ((links (body s pos)).next n)

omit [DecidableEq α] in
def Linked (m : Links α) (u v : α) : Prop := m.next u = v ∧ m.prev v = u

omit [DecidableEq α] in
/-- The list through the links from `head` back to it. -/
structure Ring (m : Links α) (head : α) (l : List α) : Prop where
  path : (head :: l ++ [head]).IsChain (Linked m)
  nodup : (head :: l).Nodup

variable {m m' : Links α} {head x : α} {l l₁ l₂ : List α}

omit [DecidableEq α] in
/-- A path whose nodes keep the links along it. -/
theorem path_congr : ∀ {l : List α}, l.IsChain (Linked m) → (∀ u ∈ l.dropLast, m'.next u = m.next u) →
    (∀ v ∈ l.tail, m'.prev v = m.prev v) → l.IsChain (Linked m')
  | [], _, _, _ => .nil
  | [a], _, _, _ => .singleton a
  | a :: b :: l, h, hn, hp => by
    rw [List.isChain_cons_cons] at h ⊢
    refine ⟨⟨?_, ?_⟩, path_congr h.2 (fun u hu => hn u (List.mem_cons_of_mem a hu)) fun v hv =>
      hp v (List.mem_cons_of_mem b hv)⟩
    · rw [hn a List.mem_cons_self, h.1.1]
    · rw [hp b List.mem_cons_self, h.1.2]

omit [DecidableEq α] in
theorem getLast_notMem_dropLast {l : List α} (h : l.Nodup) (hne : l ≠ []) : l.getLast hne ∉ l.dropLast := by
  rw [← List.dropLast_append_getLast hne] at h
  intro hm
  exact (List.disjoint_of_nodup_append h) hm (List.mem_singleton_self _)

omit [DecidableEq α] in
/-- Where a path from the head is cut, its last node is linked to the next. -/
theorem Ring.cut {y : α} {l₁ l₂ : List α} (h : (head :: l₁ ++ y :: l₂).IsChain (Linked m)) :
    Linked m ((head :: l₁).getLast (List.cons_ne_nil _ _)) y :=
  h.rel_getLast_head_of_append (List.cons_ne_nil _ _) (List.cons_ne_nil _ _)

theorem ring_initListHead (m : Links α) (head : α) : Ring (m.initListHead head) head [] where
  path := by simp [Linked, Links.initListHead]
  nodup := by simp

/-- A node outside the ring becomes one of its own. -/
theorem Ring.initListHead (h : Ring m head l) {ptr : α} (hn : ptr ∉ head :: l) : Ring (m.initListHead ptr) head l where
  path := by
    refine path_congr h.path (fun u hu => ?_) fun v hv => ?_
    · have hne : u ≠ ptr := by
        rintro rfl
        rw [List.dropLast_concat] at hu
        exact hn hu
      exact Function.update_of_ne hne ..
    · have hne : v ≠ ptr := by
        rintro rfl
        rcases List.mem_append.1 (show v ∈ l ++ [head] from hv) with hm | hm
        · exact hn (List.mem_cons_of_mem head hm)
        · exact hn (List.mem_singleton.1 hm ▸ List.mem_cons_self)
      exact Function.update_of_ne hne ..
  nodup := h.nodup

/-- **`list_add_tail` appends its node.** -/
theorem Ring.listAddTail (h : Ring m head l) {new : α} (hn : new ∉ head :: l) :
    Ring (m.listAddTail new head) head (l ++ [new]) := by
  have hlast : m.prev head = (head :: l).getLast (List.cons_ne_nil _ _) := (Ring.cut h.path).2
  have hout := getLast_notMem_dropLast h.nodup (List.cons_ne_nil _ _)
  rw [← hlast] at hout
  have hmem : m.prev head ∈ head :: l := by
    rw [hlast]
    exact List.getLast_mem _
  have hne : m.prev head ≠ new := fun he => hn (he ▸ hmem)
  have hhead : head ≠ new := fun he => hn (he ▸ List.mem_cons_self)
  constructor
  · have hpath : (head :: l).IsChain (Linked (m.listAddTail new head)) := by
      refine path_congr h.path.left_of_append (fun u hu => ?_) fun v hv => ?_
      · have h1 : u ≠ m.prev head := fun he => hout (he ▸ hu)
        have h2 : u ≠ new := fun he => hn (he ▸ List.dropLast_subset _ hu)
        simp [Links.listAddTail, Links.listAddBetween, h1, h2]
      · have h1 : v ≠ new := fun he => hn (he ▸ List.mem_cons_of_mem head hv)
        have h2 : v ≠ head := fun he => (List.nodup_cons.1 h.nodup).1 (he ▸ hv)
        simp [Links.listAddTail, Links.listAddBetween, h1, h2]
    have hpair : [new, head].IsChain (Linked (m.listAddTail new head)) := by
      rw [List.isChain_pair]
      simp [Linked, Links.listAddTail, Links.listAddBetween, Ne.symm hne, hhead]
    have := hpath.append hpair ?_
    · simpa using this
    · intro u hu v hv
      rw [List.getLast?_eq_some_getLast (List.cons_ne_nil _ _), ← hlast, Option.mem_some_iff] at hu
      obtain rfl : new = v := by simpa using hv
      subst hu
      simp [Linked, Links.listAddTail, Links.listAddBetween]
  · have hnd := h.nodup.append (List.nodup_singleton new) (List.disjoint_singleton.2 hn)
    simpa using hnd

/-- **`list_del` removes its node**, whatever it writes to the node's own links. -/
theorem Ring.listDel (h : Ring m head (l₁ ++ x :: l₂)) (poison1 poison2 : α) :
    Ring (m.listDel poison1 poison2 x) head (l₁ ++ l₂) := by
  have hpath : (head :: l₁ ++ x :: (l₂ ++ [head])).IsChain (Linked m) := by simpa using h.path
  have hnd : (head :: l₁ ++ x :: l₂).Nodup := by simpa using h.nodup
  have hleft : (head :: l₁).Nodup := hnd.of_append_left
  have hdisj : List.Disjoint (head :: l₁) (x :: l₂) := List.disjoint_of_nodup_append hnd
  obtain ⟨hx, hright⟩ := List.nodup_cons.1 hnd.of_append_right
  have hxl : x ∉ head :: l₁ := fun hm => hdisj hm List.mem_cons_self
  -- the nodes on both sides of `x`
  have hp : m.prev x = (head :: l₁).getLast (List.cons_ne_nil _ _) := (Ring.cut hpath).2
  have hpm : m.prev x ∈ head :: l₁ := by
    rw [hp]
    exact List.getLast_mem _
  have hpd : m.prev x ∉ (head :: l₁).dropLast := by
    rw [hp]
    exact getLast_notMem_dropLast hleft _
  obtain ⟨n, rest, hrest⟩ : ∃ n rest, l₂ ++ [head] = n :: rest := List.exists_cons_of_ne_nil (by simp)
  have hn : m.next x = n := by
    have := hpath.right_of_append
    rw [hrest, List.isChain_cons_cons] at this
    exact this.1.1
  have hnm : n ∈ l₂ ∨ n = head := by
    have : n ∈ l₂ ++ [head] := by
      rw [hrest]
      exact List.mem_cons_self
    simpa using this
  have hnx : n ≠ x := by
    rintro rfl
    exact hnm.elim hx fun he => hxl (he ▸ List.mem_cons_self)
  have hpx : m.prev x ≠ x := fun he => hxl (he ▸ hpm)
  have hnext : ∀ u, u ≠ m.prev x → u ≠ x → (m.listDel poison1 poison2 x).next u = m.next u := by
    intro u h1 h2
    simp [Links.listDel, Links.listDelBetween, h1, h2]
  have hprev : ∀ v, v ≠ n → v ≠ x → (m.listDel poison1 poison2 x).prev v = m.prev v := by
    intro v h1 h2
    simp [Links.listDel, Links.listDelBetween, hn, h1, h2]
  constructor
  · have hA : (head :: l₁).IsChain (Linked (m.listDel poison1 poison2 x)) := by
      refine path_congr hpath.left_of_append (fun u hu => hnext u ?_ ?_) fun v hv => hprev v ?_ ?_
      · exact fun he => hpd (he ▸ hu)
      · exact fun he => hxl (he ▸ List.dropLast_subset _ hu)
      · rintro rfl
        rcases hnm with hm | rfl
        · exact hdisj (List.mem_cons_of_mem head hv) (List.mem_cons_of_mem x hm)
        · exact (List.nodup_cons.1 hleft).1 hv
      · exact fun he => hxl (he ▸ List.mem_cons_of_mem head hv)
    have hB : (l₂ ++ [head]).IsChain (Linked (m.listDel poison1 poison2 x)) := by
      have hBold := (List.isChain_cons.1 hpath.right_of_append).2
      have hBnd : (l₂ ++ [head]).Nodup :=
        hright.append (List.nodup_singleton head) (List.disjoint_singleton.2 fun hm =>
          hdisj List.mem_cons_self (List.mem_cons_of_mem x hm))
      refine path_congr hBold (fun u hu => hnext u ?_ ?_) fun v hv => hprev v ?_ ?_
      · rw [List.dropLast_concat] at hu
        exact fun he => hdisj (he ▸ hpm) (List.mem_cons_of_mem x hu)
      · rw [List.dropLast_concat] at hu
        exact fun he => hx (he ▸ hu)
      · rw [hrest] at hBnd hv
        exact fun he => (List.nodup_cons.1 hBnd).1 (he ▸ hv)
      · have hmem : v ∈ l₂ ++ [head] := List.mem_of_mem_tail hv
        rintro rfl
        rcases List.mem_append.1 hmem with hm | hm
        · exact hx hm
        · exact hxl (List.mem_singleton.1 hm ▸ List.mem_cons_self)
    have := hA.append hB ?_
    · simpa using this
    · intro u hu v hv
      rw [List.getLast?_eq_some_getLast (List.cons_ne_nil _ _), ← hp, Option.mem_some_iff] at hu
      rw [hrest, List.head?_cons, Option.mem_some_iff] at hv
      subst hu hv
      simp [Linked, Links.listDel, Links.listDelBetween, hn, hpx, hnx]
  · have hsub : (head :: (l₁ ++ l₂)).Sublist (head :: (l₁ ++ x :: l₂)) := by simp
    exact h.nodup.sublist hsub

omit [DecidableEq α] in
theorem Ring.next_head (h : Ring m head l) : m.next head = l.head?.getD head := by
  have hpath := h.path
  cases l with
  | nil => exact (List.isChain_cons_cons.1 hpath).1.1
  | cons y l => exact (List.isChain_cons_cons.1 hpath).1.1

omit [DecidableEq α] in
theorem Ring.next_first (h : Ring m head (x :: l)) : m.next x = l.head?.getD head := by
  have hpath := (List.isChain_cons_cons.1 h.path).2
  cases l with
  | nil => exact (List.isChain_cons_cons.1 hpath).1.1
  | cons y l => exact (List.isChain_cons_cons.1 hpath).1.1

/-- The walk along a path that comes to the head ends, at the first node that satisfies `p` or at the head. -/
theorem findFrom_path {p : α → Bool} : ∀ {rest : List α} {u : α} {fuel : Nat},
    (u :: rest ++ [head]).IsChain (Linked m) → head ∉ rest → rest.length < fuel →
    m.findFrom head p fuel (m.next u) = some ((rest.find? p).getD head)
  | [], u, fuel + 1, h, _, _ => by
    have hu : m.next u = head := (List.isChain_cons_cons.1 h).1.1
    rw [hu, Links.findFrom, if_pos rfl]
    rfl
  | y :: rest, u, fuel + 1, h, hm, hf => by
    obtain ⟨hu, hrest⟩ := List.isChain_cons_cons.1 h
    obtain ⟨hy, hm⟩ := not_or.1 (List.mem_cons.not.1 hm)
    rw [hu.1, Links.findFrom, if_neg (Ne.symm hy), List.find?_cons]
    cases hp : p y with
    | true => rfl
    | false => exact findFrom_path hrest hm (Nat.lt_of_succ_lt_succ hf)

/-- **`list_for_each_entry` finds what the list has.** -/
theorem Ring.findFrom (h : Ring m head l) {p : α → Bool} {fuel : Nat} (hf : l.length < fuel) :
    m.findFrom head p fuel (m.next head) = some ((l.find? p).getD head) :=
  findFrom_path h.path (List.nodup_cons.1 h.nodup).1 hf

/-- **`list_for_each_entry_safe` with a body that deletes its node** visits every node, and ends. -/
theorem forEachSafe_del {σ : Type v} {links : σ → Links α} {body : σ → α → σ} {P : List α → σ → Prop}
    (hring : ∀ l s, P l s → Ring (links s) head l) (hbody : ∀ x l s, P (x :: l) s → P l (body s x)) :
    ∀ (l : List α) (s : σ) (fuel : Nat), P l s → l.length < fuel → ∃ s',
      forEachSafe links body head fuel s ((links s).next head) ((links s).next ((links s).next head)) = some s' ∧
        P [] s'
  | [], s, fuel + 1, h, _ => by
    rw [(hring [] s h).next_head, forEachSafe]
    exact ⟨s, if_pos rfl, h⟩
  | x :: l, s, fuel + 1, h, hf => by
    have hr := hring (x :: l) s h
    have hx : x ≠ head := fun he => (List.nodup_cons.1 hr.nodup).1 (he ▸ List.mem_cons_self)
    have h' := hbody x l s h
    obtain ⟨s', hs', hP⟩ := forEachSafe_del hring hbody l (body s x) fuel h' (Nat.lt_of_succ_lt_succ hf)
    refine ⟨s', ?_, hP⟩
    rw [(hring l _ h').next_head] at hs'
    have hfirst : (links s).next head = x := hr.next_head
    rw [hfirst, forEachSafe, if_neg hx, hr.next_first]
    exact hs'

end ListHeads
