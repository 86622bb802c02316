import DevMgr.BufferPointers
/-!
# BufferView — the item of the four pointers, counted from `_head`

`BufferItem` counts positions from `_head` and keeps the bytes of the block.  `view` is that of an item on addresses;
each call within the available space does to the view what `BufferItem` says.
-/
namespace DevMgr.BufferPointers

open Memory Objects
open BufferItem (newBytes)

def view (x : BufferPointers) : BufferItem :=
  { head := x.head ≠ 0
    mem := load x.mem x.head (x.end_ - x.head)
    data := x.data - x.head
    tail := x.tail - x.head
    dataLen := x.dataLen.toNat }

/-- The call on positions; the bytes of a larger block that are not copied are the new ones. -/
def itemCall (b : BufferItem) : BufferCall → Except Assertion BufferItem
  | .alloc size new => b.alloc size.toNat new.fresh
  | .expand len new => b.expand len.toNat fun i => new.fresh (b.room + i)
  | .reset len => b.reset len.toNat
  | .reserve len => b.reserve len.toNat
  | .put bs => b.putBytes bs
  | .push bs => (b.push bs.length).map fun r => r.1.write r.2 bs
  | .pull len => b.pull len.toNat

theorem newBytes_add (fresh : Nat → BYTE) (n k : Nat) :
    newBytes fresh (n + k) = newBytes fresh n ++ newBytes (fun i => fresh (n + i)) k := by
  simp [newBytes, List.range_add]

section
variable {x x' : BufferPointers} {s : Space} {len : UINT} {b : Block}

/-- The view of an item that holds a space, by what its block holds. -/
theorem Holds.view_of (h : x.Holds s) {m : List BYTE} (hm : load x.mem x.head s.room = m) : x.view =
    { head := s.allocated, mem := m, data := s.headRoom, tail := s.headRoom + s.content.length,
      dataLen := s.content.length } := by
  have hhead : decide (x.head ≠ 0) = s.allocated := by
    rw [Bool.eq_iff_iff, decide_eq_true_iff]
    exact h.allocated
  have htail : x.tail - x.head = s.headRoom + s.content.length := by
    rw [h.tail, h.data]
    omega
  unfold view
  rw [hhead, h.end_eq, h.data, htail, h.dataLen, Nat.add_sub_cancel_left, Nat.add_sub_cancel_left, hm]

theorem Holds.view_eq (h : x.Holds s) : x.view =
    { head := s.allocated, mem := load x.mem x.head s.room, data := s.headRoom,
      tail := s.headRoom + s.content.length, dataLen := s.content.length } :=
  h.view_of rfl

theorem Holds.view_room (h : x.Holds s) : x.view.room = s.room := by
  rw [h.view_eq, BufferItem.room, length_load]

theorem reset_ok {ndebug : Bool} (h : x.reset ndebug len = .ok x') :
    x' = { x with data := x.head + len.toNat, tail := x.head + len.toNat, dataLen := 0 } := by
  unfold BufferPointers.reset at h
  split at h
  · cases h
  · exact (Except.ok.inj h).symm

theorem view_reset (h : x.Holds s) (hl : len.toNat ≤ s.room) :
    ∃ x', x.reset false len = .ok x' ∧ x.view.reset len.toNat = .ok x'.view := by
  obtain ⟨x', hx', hh⟩ := h.reset false hl
  have hroom := Space.room_model (c := .reset len) hl
  dsimp only at hroom
  refine ⟨x', hx', ?_⟩
  obtain rfl := reset_ok hx'
  rw [h.view_eq, hh.view_of (congrArg (load x.mem x.head) hroom), BufferItem.reset]
  exact if_pos (by rw [length_load]; exact hl)

theorem view_alloc (h : x.Holds s) {size : UINT} (hp : b.place ≠ 0) :
    ∃ x', x.alloc false size b = .ok x' ∧ x.view.alloc size.toNat b.fresh = .ok x'.view := by
  obtain ⟨x', hx', hh⟩ := h.alloc false size hp
  have hmax := Space.room_model (s := s) (c := .alloc size b) trivial
  dsimp only at hmax
  refine ⟨x', hx', ?_⟩
  have hx'' := reset_ok hx'
  rw [BufferItem.alloc, h.view_room]
  by_cases hs : s.room < size.toNat
  · have hs' : s.headRoom + s.content.length + s.tailRoom < size.toNat := hs
    rw [if_pos (h.room_lt_iff.2 hs)] at hx''
    have hload : load x'.mem x'.head (Space.model s (.alloc size b)).1.room = newBytes b.fresh size.toNat := by
      have hstored := load_store x.mem b.place (newBytes b.fresh size.toNat)
      rw [BufferItem.length_newBytes] at hstored
      rw [hmax, Nat.max_eq_right (Nat.le_of_lt hs), hx'']
      exact hstored
    rw [if_pos hs, hh.view_of hload, BufferItem.reset, if_pos (Nat.zero_le _)]
    simp [Space.model, hs']
  · have hs' : ¬ s.headRoom + s.content.length + s.tailRoom < size.toNat := hs
    rw [if_neg (hs ∘ h.room_lt_iff.1)] at hx''
    have hload : load x'.mem x'.head (Space.model s (.alloc size b)).1.room = load x.mem x.head s.room := by
      rw [hmax, Nat.max_eq_left (Nat.le_of_not_lt hs), hx'']
    rw [if_neg hs, hh.view_of hload, h.view_eq, BufferItem.reset, if_pos (Nat.zero_le _)]
    simp [Space.model, hs']

theorem view_reserve (h : x.Holds s) (hnil : s.content = []) (hl : len.toNat ≤ s.tailRoom) :
    ∃ x', x.reserve false len = .ok x' ∧ x.view.reserve len.toNat = .ok x'.view := by
  obtain ⟨x', hx', hh⟩ := h.reserve false hnil hl
  have hroom := Space.room_model (c := .reserve len) ⟨hnil, hl⟩
  dsimp only at hroom
  refine ⟨x', hx', ?_⟩
  unfold BufferPointers.reserve at hx'
  split at hx' <;> cases hx'
  rw [h.view_eq, hh.view_of (congrArg (load x.mem x.head) hroom), BufferItem.reserve]
  refine (if_pos (congrArg List.length hnil)).trans ?_
  simp [Space.model, hnil]

theorem view_expand (h : x.Holds s) (hp : b.place ≠ 0) (hfits : x.room.toNat + len.toNat < 2 ^ 32)
    (hapart : b.place + (x.room + len).toNat ≤ x.head ∨ x.end_ ≤ b.place) :
    ∃ x', x.expand len b = .ok x' ∧
      x.view.expand len.toNat (fun i => b.fresh (x.view.room + i)) = .ok x'.view := by
  obtain ⟨x', hx', hh⟩ := h.expand hp hfits hapart
  have hsize := h.room_add hfits
  have hroom : (Space.model s (.expand len b)).1.room = (x.room + len).toNat := by
    rw [Space.room_model (c := .expand len b) trivial, hsize]
  have hnew : (newBytes b.fresh (x.room + len).toNat).drop s.room =
      newBytes (fun i => b.fresh (s.room + i)) len.toNat := by
    rw [hsize, newBytes_add, List.drop_left' (BufferItem.length_newBytes ..)]
  refine ⟨x', hx', ?_⟩
  have hload : load x'.mem x'.head (Space.model s (.expand len b)).1.room =
      load x.mem x.head s.room ++ newBytes (fun i => b.fresh (s.room + i)) len.toNat := by
    have hgrown := h.load_expand b hfits hapart
    rw [hroom, ← hnew]
    unfold BufferPointers.expand at hx'
    dsimp only at hx'
    split at hx'
    · cases hx'
    · cases hx'
      exact hgrown
  have hlt : s.room + len.toNat < 2 ^ 32 := hsize ▸ (x.room + len).toNat_lt
  rw [hh.view_of hload, BufferItem.expand, h.view_room, if_pos hlt, h.view_eq]
  simp [Space.model]

/-- The size wraps on positions as well. -/
theorem view_expand_wraps (h : x.Holds s) (hfits : ¬ x.room.toNat + len.toNat < 2 ^ 32) (fresh : Nat → BYTE) :
    x.view.expand len.toNat fresh = .error .expandCopy := by
  rw [BufferItem.expand, h.view_room, ← h.room_eq, if_neg hfits]

/-! ## The calls with bytes -/

/-- A call that passes `assert(_head)` leaves the block where it is, with the bytes stored at the place. -/
theorem put_ok {bs : List BYTE} (h : call false x (.put bs) = .ok x') :
    x.head ≠ 0 ∧ x'.head = x.head ∧ x'.mem = store x.mem x.tail bs := by
  unfold call BufferPointers.put copyTo at h
  dsimp only at h
  split at h
  · cases h
  · rename_i hn
    split at h
    · cases h
    · dsimp only [Except.bind] at h
      split at h <;> cases h
      exact ⟨by simpa using hn, rfl, rfl⟩

theorem push_ok {bs : List BYTE} (h : call false x (.push bs) = .ok x') :
    x.head ≠ 0 ∧ x'.head = x.head ∧ x'.mem = store x.mem (x.data - (UInt32.ofNat bs.length).toNat) bs := by
  unfold call BufferPointers.push copyTo at h
  dsimp only at h
  split at h
  · cases h
  · rename_i hn
    split at h
    · cases h
    · dsimp only [Except.bind] at h
      split at h <;> cases h
      exact ⟨by simpa using hn, rfl, rfl⟩

theorem pull_ok (h : call false x (.pull len) = .ok x') : x.head ≠ 0 ∧ x'.head = x.head ∧ x'.mem = x.mem := by
  unfold call BufferPointers.pull at h
  dsimp only at h
  split at h
  · cases h
  · rename_i hn
    cases h
    exact ⟨by simpa using hn, rfl, rfl⟩

theorem view_put (h : x.Holds s) {bs : List BYTE} (hl : bs.length ≤ s.tailRoom) (hx : call false x (.put bs) = .ok x')
    (hh : x'.Holds (Space.model s (.put bs)).1) : x.view.putBytes bs = .ok x'.view := by
  obtain ⟨hhead, hhead', hmem⟩ := put_ok hx
  have htail : x.tail = x.head + (s.headRoom + s.content.length) := by rw [h.tail, h.data, Nat.add_assoc]
  have hfit : s.headRoom + s.content.length + bs.length ≤ s.room := by
    rw [Space.room_eq]
    omega
  have hroom := Space.room_model (c := .put bs) hl
  dsimp only at hroom
  have hload : load x'.mem x'.head (Space.model s (.put bs)).1.room =
      (load x.mem x.head s.room).take (s.headRoom + s.content.length) ++ bs ++
        (load x.mem x.head s.room).drop (s.headRoom + s.content.length + bs.length) := by
    rw [hroom, hhead', hmem, htail]
    exact load_store_within hfit
  rw [hh.view_of hload, h.view_eq, BufferItem.putBytes, BufferItem.put_of_room (h.allocated.1 hhead)]
  · simp [Space.model, BufferItem.write, Nat.add_assoc]
  · rw [BufferItem.room, length_load]
    exact hfit

theorem view_push (h : x.Holds s) {bs : List BYTE} (hl : bs.length ≤ s.headRoom)
    (hx : call false x (.push bs) = .ok x') (hh : x'.Holds (Space.model s (.push bs)).1) :
    itemCall x.view (.push bs) = .ok x'.view := by
  obtain ⟨hhead, hhead', hmem⟩ := push_ok hx
  have hall := h.allocated.1 hhead
  have hlen : (UInt32.ofNat bs.length).toNat = bs.length := h.toNat_length (by rw [Space.room]; omega)
  have hdata : x.data - bs.length = x.head + (s.headRoom - bs.length) := by
    rw [h.data]
    omega
  have hroom := Space.room_model (c := .push bs) hl
  dsimp only at hroom
  have hload : load x'.mem x'.head (Space.model s (.push bs)).1.room =
      (load x.mem x.head s.room).take (s.headRoom - bs.length) ++ bs ++
        (load x.mem x.head s.room).drop (s.headRoom - bs.length + bs.length) := by
    rw [hroom, hhead', hmem, hlen, hdata]
    exact load_store_within (by rw [Space.room_eq]; omega)
  rw [hh.view_of hload, h.view_eq, itemCall, BufferItem.push]
  rw [if_neg (by simp [hall]), if_pos hl]
  simp [Except.map, Space.model, BufferItem.write]
  omega

theorem view_pull (h : x.Holds s) (hl : len.toNat ≤ s.content.length) (hx : call false x (.pull len) = .ok x')
    (hh : x'.Holds (Space.model s (.pull len)).1) : x.view.pull len.toNat = .ok x'.view := by
  obtain ⟨hhead, hhead', hmem⟩ := pull_ok hx
  have hall := h.allocated.1 hhead
  have hroom := Space.room_model (c := .pull len) hl
  dsimp only at hroom
  have hload : load x'.mem x'.head (Space.model s (.pull len)).1.room = load x.mem x.head s.room := by
    rw [hroom, hhead', hmem]
  rw [hh.view_of hload, h.view_eq, BufferItem.pull, if_neg (by simp [hall])]
  simp [Space.model]
  omega

/-- A call for no bytes on an item without a block stops on positions too. -/
theorem view_stops (h : x.Holds s) {c : BufferCall} {e : Fault} (hstop : Space.Stops false s c e) :
    itemCall x.view c = .error .headNull := by
  obtain ⟨-, hall, rfl | rfl | rfl, -⟩ := hstop
  · rw [h.view_eq, hall]
    rfl
  · rw [h.view_eq, hall]
    rfl
  · rw [h.view_eq, hall]
    rfl

/-- A failure on addresses and on positions: `assert(_head)`, or an `Expand` whose size wraps. -/
inductive SameFault : Fault → Assertion → Prop
  | headNull : SameFault (.assertion .headNull) .headNull
  | expand : SameFault .overrun .expandCopy

/-- **The item on positions is the item on addresses**: a call within the available space does the same to both, or
fails on both. -/
theorem view_call (h : x.Holds s) {c : BufferCall} (hmay : x.MayCall c) :
    (∃ x', call false x c = .ok x' ∧ itemCall x.view c = .ok x'.view) ∨
      ∃ e a, SameFault e a ∧ call false x c = .error e ∧ itemCall x.view c = .error a := by
  have hin := h.within hmay
  cases c with
  | alloc size b => exact .inl (view_alloc h hmay)
  | expand len b =>
    by_cases hfits : x.room.toNat + len.toNat < 2 ^ 32
    · obtain ⟨x', hx', hv⟩ := view_expand h hmay.1 hfits hmay.2
      exact .inl ⟨x', hx', hv⟩
    · exact .inr ⟨_, _, .expand, expand_overrun hfits, view_expand_wraps h hfits _⟩
  | reset len => exact .inl (view_reset h hin)
  | reserve len => exact .inl (view_reserve h hin.1 hin.2)
  | put bs =>
    obtain ⟨he, hstop⟩ | ⟨x', hx', hh⟩ := h.put false hin
    · exact .inr ⟨_, _, .headNull, he, view_stops h hstop⟩
    · exact .inl ⟨x', hx', view_put h hin hx' hh⟩
  | push bs =>
    obtain ⟨he, hstop⟩ | ⟨x', hx', hh⟩ := h.push false hin
    · exact .inr ⟨_, _, .headNull, he, view_stops h hstop⟩
    · exact .inl ⟨x', hx', view_push h hin hx' hh⟩
  | pull len =>
    obtain ⟨he, hstop⟩ | ⟨x', hx', hh⟩ := h.pull false hin
    · exact .inr ⟨_, _, .headNull, he, view_stops h hstop⟩
    · exact .inl ⟨x', hx', view_pull h hin hx' hh⟩

/-- An item after a call that went through. -/
theorem Holds.called (h : x.Holds s) {c : BufferCall} (hmay : x.MayCall c) (hx' : call false x c = .ok x') :
    ∃ s', x'.Holds s' := by
  have hcall : (object false).call x c = .ok (x', ()) := congrArg (Except.map _) hx'
  by_cases hfits : x.Fits c
  · obtain ⟨e, he, -⟩ | ⟨y, hy, hh⟩ := object_refines false x s c h ⟨hmay, hfits⟩
    · cases hcall.symm.trans he
    · cases hcall.symm.trans hy
      exact ⟨_, hh⟩
  · cases c with
    | expand len b => cases hx'.symm.trans (expand_overrun hfits)
    | _ => exact absurd trivial hfits

end

theorem Holds.view_run {calls : List BufferCall} : ∀ {x : BufferPointers} {s : Space}, x.Holds s →
    (object false).Allowed x calls →
      (∃ x' rets, (object false).run x calls = .ok (x', rets) ∧ calls.foldlM itemCall x.view = .ok x'.view) ∨
        ∃ e a, SameFault e a ∧ (object false).run x calls = .error e ∧
          calls.foldlM itemCall x.view = .error a := by
  induction calls with
  | nil => exact fun _ _ => .inl ⟨_, _, rfl, rfl⟩
  | cons c calls ih =>
    rintro x s h ⟨hmay, hall⟩
    rw [Object.run, List.foldlM_cons]
    obtain ⟨x', hx', hv⟩ | ⟨e, a, hsame, he, hv⟩ := view_call h hmay
    · have hcall : (object false).call x c = .ok (x', ()) := congrArg (Except.map _) hx'
      rw [hcall] at hall
      obtain ⟨s', hh⟩ := h.called hmay hx'
      rw [hcall, hv]
      dsimp only
      obtain ⟨y, rets, hy, hview⟩ | ⟨e, a, hsame, hy, hview⟩ := ih hh hall
      · rw [hy]
        exact .inl ⟨y, _, rfl, hview⟩
      · rw [hy]
        exact .inr ⟨e, a, hsame, rfl, hview⟩
    · have hcall : (object false).call x c = .error e := congrArg (Except.map _) he
      rw [hcall, hv]
      exact .inr ⟨e, a, hsame, rfl, rfl⟩

/-- **Runs on positions are runs on addresses**, from the constructed item on: both go through and leave the same item,
or both fail in the same way. -/
theorem run_view (mem : Nat → BYTE) {calls : List BufferCall} (h : (object false).Allowed (new mem) calls) :
    (∃ x rets, (object false).run (new mem) calls = .ok (x, rets) ∧ calls.foldlM itemCall BufferItem.new = .ok x.view) ∨
      ∃ e a, SameFault e a ∧ (object false).run (new mem) calls = .error e ∧
        calls.foldlM itemCall BufferItem.new = .error a :=
  (holds_new mem).view_run h

/-- The calls that slide the data leave the same item; an `Expand` that wraps fails on both. -/
theorem run_view_slide :
    (∃ x rets, (object false).run (new fun _ => 0) slide = .ok (x, rets) ∧
      slide.foldlM itemCall BufferItem.new = .ok x.view) ∧
    (object false).run (new fun _ => 0) wrapping = .error .overrun ∧
      wrapping.foldlM itemCall BufferItem.new = .error .expandCopy := by
  constructor
  · obtain hok | ⟨e, a, -, he, -⟩ := run_view (fun _ => 0)
      (show (object false).Allowed (new fun _ => 0) slide by decide)
    · exact hok
    · have hgoes : ((object false).run (new fun _ => 0) slide).toOption.isSome = true := by decide
      rw [he] at hgoes
      cases hgoes
  · have hrun : (object false).run (new fun _ => 0) wrapping = .error .overrun := rfl
    obtain ⟨x, rets, hx, -⟩ | ⟨e, a, hsame, he, ha⟩ := run_view (fun _ => 0)
      (show (object false).Allowed (new fun _ => 0) wrapping by decide)
    · rw [hrun] at hx
      cases hx
    · rw [hrun] at he
      cases he
      cases hsame
      exact ⟨hrun, ha⟩

end DevMgr.BufferPointers
