import DevMgr.BufferItem
/-!
# AdbCmd — a child process, its output and its result

`AdbCmd.cpp`: `Execute` runs the child, collects what it writes in `_biOutput`, and has the class make `_biResult` of
it.  A child is what `CreateChildProcess` returned, and its successful reads; newly allocated bytes are whatever `new`
returned.
-/
namespace DevMgr

/-- What ends a command's run: an assertion of `BufferItem` or of the size of a result, or a read or a store past an
allocation. -/
inductive CmdFault where
  | assertion (e : Assertion)
  | overread
  | overrun
  | resultSize
  deriving DecidableEq, Repr

/-- A computation that returns has done all its steps. -/
theorem bind_eq_ok {ε α β : Type} {x : Except ε α} {f : α → Except ε β} {y : β} :
    x >>= f = .ok y ↔ ∃ a, x = .ok a ∧ f a = .ok y := by
  constructor
  · intro h
    cases x with
    | error e => cases h
    | ok a => exact ⟨a, rfl, h⟩
  · rintro ⟨a, rfl, h⟩
    exact h

structure ChildProcess where
  createRet : Nat
  reads : List (List BYTE)
  deriving DecidableEq, Repr

structure AdbCmd where
  biOutput : BufferItem
  biResult : BufferItem
  deriving DecidableEq, Repr

namespace AdbCmd

/-- The size of `buf` in `ProcessChildOutput`. -/
def sizeofBuf : Nat := 500

/-- The read loop; `k` counts the allocations. -/
def readLoop (fresh : Nat → Nat → BYTE) : Nat → BufferItem → List (List BYTE) → Except Assertion BufferItem
  | _, b, [] => .ok b
  | k, b, buf :: reads =>
    match if b.tailSize ≤ buf.length then b.expand sizeofBuf (fresh k) else .ok b with
    | .error e => .error e
    | .ok b => match b.put buf.length with
      | .error e => .error e
      | .ok (b, p) => readLoop fresh (k + 1) (b.write p (buf ++ [0])) reads

/-- A `memcpy` of the loop: the size of the allocation, where in it and how many bytes. -/
structure OutputStore where
  room : Nat
  place : Nat
  size : Nat
  deriving DecidableEq, Repr

def readStores (fresh : Nat → Nat → BYTE) : Nat → BufferItem → List (List BYTE) → List OutputStore
  | _, _, [] => []
  | k, b, buf :: reads =>
    match if b.tailSize ≤ buf.length then b.expand sizeofBuf (fresh k) else .ok b with
    | .error _ => []
    | .ok b => match b.put buf.length with
      | .error _ => []
      | .ok (b, p) => { room := b.room, place := p, size := buf.length + 1 } ::
          readStores fresh (k + 1) (b.write p (buf ++ [0])) reads

def outputStores (biOutput : BufferItem) (fresh : Nat → Nat → BYTE) (reads : List (List BYTE)) : List OutputStore :=
  match biOutput.alloc sizeofBuf (fresh 0) with
  | .error _ => []
  | .ok b => readStores fresh 1 b reads

def processChildOutput (biOutput : BufferItem) (fresh : Nat → Nat → BYTE) (reads : List (List BYTE)) :
    Except Assertion BufferItem :=
  match biOutput.alloc sizeofBuf (fresh 0) with
  | .error e => .error e
  | .ok b => match readLoop fresh 1 b reads with
    | .error e => .error e
    | .ok b => match b.put 1 with
      | .error e => .error e
      | .ok (b, _) => .ok b

/-- `Execute`, given what `BuildCmdline` returned. -/
def execute (processResult : AdbCmd → Except CmdFault AdbCmd) (cmd : AdbCmd) (buildRet : Nat) (child : ChildProcess)
    (fresh : Nat → Nat → BYTE) : Except CmdFault (AdbCmd × Nat) :=
  if buildRet ≠ errorSuccess then .ok (cmd, buildRet)
  else if child.createRet ≠ errorSuccess then .ok (cmd, child.createRet)
  else match processChildOutput cmd.biOutput fresh child.reads with
    | .error e => .error (.assertion e)
    | .ok b => match processResult { cmd with biOutput := b } with
      | .error e => .error e
      | .ok cmd => .ok (cmd, errorSuccess)

/-- The string that `ProcessResult` reads. -/
def szOutput (cmd : AdbCmd) : Option (List BYTE) := cString (cmd.biOutput.mem.drop cmd.biOutput.data)

/-- An object whose child has written `text`. -/
def ofOutput (text : List BYTE) : AdbCmd where
  biOutput := { head := true, mem := text ++ [0], data := 0, tail := text.length + 1, dataLen := text.length + 1 }
  biResult := .new

end AdbCmd

namespace AdbCmd

open BufferItem

/-- What `ProcessChildOutput` has read so far stands before a zero. -/
structure Reading (b : BufferItem) (text : List BYTE) : Prop where
  good : b.Good
  content : b.content = text
  zero : ∃ t, b.mem.drop b.data = text ++ 0 :: t

theorem readStep {b : BufferItem} (h : b.Good) {buf : List BYTE} (hroom : buf.length < b.tailSize) :
    ∃ b', b.put buf.length = .ok (b', b.tail) ∧ Reading (b'.write b.tail (buf ++ [0])) (b.content ++ buf) ∧
      (b'.write b.tail (buf ++ [0])).room = b.room ∧ (b'.write b.tail (buf ++ [0])).tail = b.tail + buf.length := by
  have ht := h.tail
  have hb := h.bound
  have hr : buf.length < b.mem.length - b.tail := hroom
  have hlen : (b.content ++ buf).length = b.dataLen + buf.length := by rw [List.length_append, h.length_content]
  have hdrop := drop_write_tail h (buf ++ [0])
  have hsplit : b.content ++ (buf ++ [0]) ++ b.mem.drop (b.tail + (buf ++ [0]).length) =
      b.content ++ buf ++ 0 :: b.mem.drop (b.tail + (buf ++ [0]).length) := by
    simp only [List.append_assoc, List.cons_append, List.nil_append]
  rw [hsplit] at hdrop
  have hwrite : (b.write b.tail (buf ++ [0])).room = b.room := by
    apply length_write
    rw [List.length_append, List.length_singleton]
    show b.tail + (buf.length + 1) ≤ b.mem.length
    omega
  refine ⟨{ b with tail := b.tail + buf.length, dataLen := b.dataLen + buf.length }, ?_,
    ⟨⟨h.head, ?_, ?_⟩, ?_, _, hdrop⟩, hwrite, rfl⟩
  · exact put_of_room h.head (show b.tail + buf.length ≤ b.mem.length by omega)
  · show b.tail + buf.length = b.data + (b.dataLen + buf.length)
    omega
  · have hge := length_write_ge b b.tail (buf ++ [0])
    exact Nat.le_trans (show b.tail + buf.length ≤ b.mem.length by omega) hge
  · show ((b.write b.tail (buf ++ [0])).mem.drop b.data).take (b.dataLen + buf.length) = _
    rw [hdrop, List.take_left' hlen]

/-- Before the copy there is room for the bytes and the zero, unless the size of an `Expand` wraps. -/
theorem expandFor_spec {b : BufferItem} (h : b.Good) {buf : List BYTE} (hlen : buf.length < sizeofBuf)
    (hroom : b.tailSize ≤ buf.length → b.room + sizeofBuf < 2 ^ 32) (fresh : Nat → BYTE) :
    ∃ b₁, (if b.tailSize ≤ buf.length then b.expand sizeofBuf fresh else .ok b) = .ok b₁ ∧ b₁.Good ∧
      b₁.content = b.content ∧ buf.length < b₁.tailSize ∧ b₁.tail = b.tail ∧
      b₁.room = if b.tailSize ≤ buf.length then b.room + sizeofBuf else b.room := by
  by_cases hfull : b.tailSize ≤ buf.length
  · obtain ⟨b₁, he, hg, hc, ht, hr⟩ := expand_spec h (hroom hfull) fresh
    refine ⟨b₁, (if_pos hfull).trans he, hg, hc, ?_, ht, by rw [if_pos hfull, hr]⟩
    have hb := h.bound
    show buf.length < b₁.room - b₁.tail
    rw [hr, ht]
    unfold BufferItem.room
    omega
  · exact ⟨b, if_neg hfull, h, rfl, Nat.lt_of_not_le hfull, rfl, by rw [if_neg hfull]⟩

/-- No `Expand` that the reads call for wraps, from an allocation of `room` bytes of which `used` are in use. -/
def expandsFit (room used : Nat) : List (List BYTE) → Bool
  | [] => true
  | buf :: reads =>
    if room - used ≤ buf.length then
      decide (room + sizeofBuf < 2 ^ 32) && expandsFit (room + sizeofBuf) (used + buf.length) reads
    else expandsFit room (used + buf.length) reads

/-- **An output of less than 2³² - 500 bytes** makes no `Expand` wrap, whatever the buffer was. -/
theorem expandsFit_of_length : ∀ {reads : List (List BYTE)} {room used : Nat},
    used + reads.flatten.length + sizeofBuf < 2 ^ 32 → expandsFit room used reads = true
  | [], _, _, _ => rfl
  | buf :: reads, room, used, h => by
    rw [List.flatten_cons, List.length_append] at h
    have hrest : ∀ room, expandsFit room (used + buf.length) reads = true := fun room =>
      expandsFit_of_length (by omega)
    rw [expandsFit]
    split
    · rw [hrest, Bool.and_true, decide_eq_true_iff]
      omega
    · exact hrest room

theorem readLoop_spec (fresh : Nat → Nat → BYTE) : ∀ (reads : List (List BYTE)) (k : Nat) {b : BufferItem}, b.Good →
    (∀ buf ∈ reads, buf.length < sizeofBuf) → (reads = [] → ∃ t, b.mem.drop b.data = b.content ++ 0 :: t) →
    if expandsFit b.room b.tail reads = true then
      ∃ b', readLoop fresh k b reads = .ok b' ∧ Reading b' (b.content ++ reads.flatten)
    else readLoop fresh k b reads = .error .expandCopy
  | [], k, b, h, _, h0 => by
    rw [if_pos (show expandsFit b.room b.tail [] = true from rfl)]
    refine ⟨b, rfl, h, ?_, ?_⟩
    · exact (List.append_nil _).symm
    · rw [List.flatten_nil, List.append_nil]
      exact h0 rfl
  | buf :: reads, k, b, h, hb, _ => by
    by_cases hwrap : b.tailSize ≤ buf.length ∧ ¬ b.room + sizeofBuf < 2 ^ 32
    · have hfit : ¬ expandsFit b.room b.tail (buf :: reads) = true := by
        rw [expandsFit, if_pos (show b.room - b.tail ≤ buf.length from hwrap.1), decide_eq_false hwrap.2,
          Bool.false_and]
        exact Bool.false_ne_true
      rw [if_neg hfit, readLoop, if_pos hwrap.1, expand, if_neg hwrap.2]
    · have hroom : b.tailSize ≤ buf.length → b.room + sizeofBuf < 2 ^ 32 := fun hf => not_not.1 fun hn => hwrap ⟨hf, hn⟩
      obtain ⟨b₁, he, hg, hc, hr, ht, hroom₁⟩ := expandFor_spec h (hb buf List.mem_cons_self) hroom (fresh k)
      obtain ⟨b₂, hp, hread, hroom₂, ht₂⟩ := readStep hg hr
      have ih := readLoop_spec fresh reads (k + 1) hread.good (fun x hx => hb x (List.mem_cons_of_mem _ hx)) fun _ => by
        obtain ⟨t, ht⟩ := hread.zero
        exact ⟨t, by rw [hread.content]; exact ht⟩
      have hfit : expandsFit b.room b.tail (buf :: reads) = expandsFit b₁.room (b₁.tail + buf.length) reads := by
        rw [expandsFit, hroom₁, ht]
        by_cases hf : b.tailSize ≤ buf.length
        · rw [if_pos (show b.room - b.tail ≤ buf.length from hf), if_pos hf, decide_eq_true (hroom hf), Bool.true_and]
        · rw [if_neg (show ¬ b.room - b.tail ≤ buf.length from hf), if_neg hf]
      have hloop : readLoop fresh k b (buf :: reads) =
          readLoop fresh (k + 1) (b₂.write b₁.tail (buf ++ [0])) reads := by
        rw [readLoop, he]
        dsimp only
        rw [hp]
      rw [hroom₂, ht₂, hread.content, hc, List.append_assoc] at ih
      rw [hfit, hloop, List.flatten_cons]
      exact ih

theorem readStores_within (fresh : Nat → Nat → BYTE) : ∀ (reads : List (List BYTE)) (k : Nat) {b : BufferItem},
    b.Good → (∀ buf ∈ reads, buf.length < sizeofBuf) →
    ∀ s ∈ readStores fresh k b reads, s.place + s.size ≤ s.room
  | [], _, _, _, _, s, hs => by cases hs
  | buf :: reads, k, b, h, hb, s, hs => by
    by_cases hwrap : b.tailSize ≤ buf.length ∧ ¬ b.room + sizeofBuf < 2 ^ 32
    · rw [readStores, if_pos hwrap.1, expand, if_neg hwrap.2] at hs
      cases hs
    · obtain ⟨b₁, he, hg, -, hr, -, -⟩ := expandFor_spec h (hb buf List.mem_cons_self)
        (fun hf => not_not.1 fun hn => hwrap ⟨hf, hn⟩) (fresh k)
      obtain ⟨b₂, hp, hread, -, -⟩ := readStep hg hr
      rw [readStores, he] at hs
      simp only [hp] at hs
      rcases List.mem_cons.1 hs with rfl | hs
      · obtain ⟨-, -, rfl⟩ := put_some hp
        have hlt : buf.length < b₁.room - b₁.tail := hr
        show b₁.tail + (buf.length + 1) ≤ b₁.room
        omega
      · exact readStores_within fresh reads (k + 1) hread.good (fun x hx => hb x (List.mem_cons_of_mem _ hx)) s hs

/-- The last `Put` takes in the byte behind the data. -/
theorem put_one {b : BufferItem} (h : b.Good) {z : BYTE} {t : List BYTE}
    (hz : b.mem.drop b.data = b.content ++ z :: t) :
    ∃ b', b.put 1 = .ok (b', b.tail) ∧ b'.mem = b.mem ∧ b'.data = b.data ∧ b'.content = b.content ++ [z] := by
  have ht := h.tail
  have hl := h.length_content
  have hroom : b.tail + 1 ≤ b.room := by
    have hlen := congrArg List.length hz
    rw [List.length_drop, List.length_append, List.length_cons] at hlen
    show b.tail + 1 ≤ b.mem.length
    omega
  refine ⟨_, put_of_room h.head hroom, rfl, rfl, ?_⟩
  show (b.mem.drop b.data).take (b.dataLen + 1) = b.content ++ [z]
  have hsplit : b.content ++ z :: t = (b.content ++ [z]) ++ t := by
    rw [List.append_assoc, List.singleton_append]
  rw [hz, hsplit, List.take_left' (by rw [List.length_append, hl, List.length_singleton])]

theorem processChildOutput_of_loop {b b₁ b₂ : BufferItem} {fresh : Nat → Nat → BYTE} {reads : List (List BYTE)}
    (ha : b.alloc sizeofBuf (fresh 0) = .ok b₁) (hl : readLoop fresh 1 b₁ reads = .ok b₂) (hg : b₂.Good) {z : BYTE}
    {t : List BYTE} (hz : b₂.mem.drop b₂.data = b₂.content ++ z :: t) :
    ∃ b', processChildOutput b fresh reads = .ok b' ∧ b'.mem.drop b'.data = b₂.content ++ z :: t ∧
      b'.content = b₂.content ++ [z] := by
  obtain ⟨b', hput, hmem, hdata, hc⟩ := put_one hg hz
  refine ⟨b', ?_, ?_, hc⟩
  · rw [processChildOutput, ha]
    dsimp only
    rw [hl]
    dsimp only
    rw [hput]
  · rw [hmem, hdata, hz]

/-- **A child that writes something is captured**: what `ProcessResult` finds is what was read, up to its first zero. -/
theorem processChildOutput_spec {b : BufferItem} (hb : b.room ≠ 0 → b.head = true) (fresh : Nat → Nat → BYTE)
    {reads : List (List BYTE)} (hne : reads ≠ []) (hlen : ∀ buf ∈ reads, buf.length < sizeofBuf)
    (hfit : expandsFit (max b.room sizeofBuf) 0 reads = true) :
    ∃ b' t, processChildOutput b fresh reads = .ok b' ∧ b'.mem.drop b'.data = reads.flatten ++ 0 :: t ∧
      b'.content = reads.flatten ++ [0] := by
  obtain ⟨b₁, ha, hg, hc, -, hroom⟩ := alloc_spec (show 0 < sizeofBuf by decide) hb (fresh 0)
  have hloop := readLoop_spec fresh reads 1 hg hlen fun he => absurd he hne
  rw [hroom, (alloc_some ha).2.1, if_pos hfit] at hloop
  obtain ⟨b₂, hl, hr⟩ := hloop
  obtain ⟨t, ht⟩ := hr.zero
  have hc₂ := hr.content
  rw [hc, List.nil_append] at ht hc₂
  obtain ⟨b', hp, hm, hc'⟩ := processChildOutput_of_loop ha hl hr.good (hc₂.symm ▸ ht)
  rw [hc₂] at hm hc'
  exact ⟨b', t, hp, hm, hc'⟩

/-- **A child whose output makes an `Expand` wrap** is not captured. -/
theorem processChildOutput_wraps {b : BufferItem} (hb : b.room ≠ 0 → b.head = true) (fresh : Nat → Nat → BYTE)
    {reads : List (List BYTE)} (hne : reads ≠ []) (hlen : ∀ buf ∈ reads, buf.length < sizeofBuf)
    (hfit : ¬ expandsFit (max b.room sizeofBuf) 0 reads = true) :
    processChildOutput b fresh reads = .error .expandCopy := by
  obtain ⟨b₁, ha, hg, -, -, hroom⟩ := alloc_spec (show 0 < sizeofBuf by decide) hb (fresh 0)
  have hloop := readLoop_spec fresh reads 1 hg hlen fun he => absurd he hne
  rw [hroom, (alloc_some ha).2.1, if_neg hfit] at hloop
  rw [processChildOutput, ha]
  dsimp only
  rw [hloop]

/-- The byte that an allocation of the output buffer starts with: an allocation that is large enough is not cleared. -/
def firstByte (biOutput : BufferItem) (fresh : Nat → Nat → BYTE) : BYTE :=
  if biOutput.room < sizeofBuf then fresh 0 0 else biOutput.mem.headD 0

theorem alloc_firstByte {b b₁ : BufferItem} {fresh : Nat → Nat → BYTE} (ha : b.alloc sizeofBuf (fresh 0) = .ok b₁) :
    ∃ t, b₁.mem = firstByte b fresh :: t := by
  unfold alloc reset at ha
  rw [if_pos (Nat.zero_le _)] at ha
  cases ha
  unfold firstByte
  split
  · obtain ⟨n, hn⟩ : ∃ n, sizeofBuf = n + 1 := ⟨499, rfl⟩
    rw [hn, newBytes_succ]
    exact ⟨_, rfl⟩
  · rename_i hr
    obtain ⟨c, t, ht⟩ := List.exists_cons_of_length_pos
      (Nat.lt_of_lt_of_le (show 0 < sizeofBuf by decide) (Nat.le_of_not_lt hr))
    show ∃ t, b.mem = b.mem.headD 0 :: t
    rw [ht]
    exact ⟨t, rfl⟩

theorem processChildOutput_silent {b : BufferItem} (hb : b.room ≠ 0 → b.head = true) (fresh : Nat → Nat → BYTE) :
    ∃ b', processChildOutput b fresh [] = .ok b' ∧ b'.content = [firstByte b fresh] := by
  obtain ⟨b₁, ha, hg, hc, hd, -⟩ := alloc_spec (show 0 < sizeofBuf by decide) hb (fresh 0)
  obtain ⟨t, ht⟩ := alloc_firstByte ha
  have hz : b₁.mem.drop b₁.data = b₁.content ++ firstByte b fresh :: t := by
    rw [hd, hc, ht, List.drop_zero, List.nil_append]
  have hl : readLoop fresh 1 b₁ [] = .ok b₁ := by rw [readLoop]
  obtain ⟨b', hp, -, hc'⟩ := processChildOutput_of_loop ha hl hg hz
  rw [hc, List.nil_append] at hc'
  exact ⟨b', hp, hc'⟩

/-- What the child wrote and a zero are the data, and no store went past the end of its allocation. -/
structure Captured (biOutput : BufferItem) (fresh : Nat → Nat → BYTE) (reads : List (List BYTE)) : Prop where
  data : ∃ b', processChildOutput biOutput fresh reads = .ok b' ∧ b'.content = reads.flatten ++ [0]
  within : ∀ s ∈ outputStores biOutput fresh reads, s.place + s.size ≤ s.room

/-- **The output is captured exactly when no `Expand` wraps, and the child writes something or the buffer happens to
start with a zero**: the last `Put` claims the zero that only a read has written. -/
theorem captured_iff {b : BufferItem} (hb : b.room ≠ 0 → b.head = true) (fresh : Nat → Nat → BYTE)
    {reads : List (List BYTE)} (hlen : ∀ buf ∈ reads, 0 < buf.length ∧ buf.length < sizeofBuf) :
    Captured b fresh reads ↔ expandsFit (max b.room sizeofBuf) 0 reads = true ∧
      (reads ≠ [] ∨ firstByte b fresh = 0) := by
  have hlt : ∀ buf ∈ reads, buf.length < sizeofBuf := fun buf hm => (hlen buf hm).2
  have hwithin : ∀ s ∈ outputStores b fresh reads, s.place + s.size ≤ s.room := by
    obtain ⟨b₁, ha, hg, -⟩ := alloc_spec (show 0 < sizeofBuf by decide) hb (fresh 0)
    rw [outputStores, ha]
    exact readStores_within fresh reads 1 hg hlt
  by_cases hne : reads = []
  · subst hne
    obtain ⟨b', hp, hc⟩ := processChildOutput_silent hb fresh
    constructor
    · rintro ⟨⟨b'', hp', hc'⟩, -⟩
      rw [hp] at hp'
      cases hp'
      rw [hc] at hc'
      exact ⟨rfl, .inr (List.cons.inj hc').1⟩
    · intro h
      have h0 := h.2.resolve_left fun hn => hn rfl
      rw [h0] at hc
      exact ⟨⟨b', hp, hc⟩, hwithin⟩
  · by_cases hfit : expandsFit (max b.room sizeofBuf) 0 reads = true
    · obtain ⟨b', t, hp, -, hc⟩ := processChildOutput_spec hb fresh hne hlt hfit
      exact iff_of_true ⟨⟨b', hp, hc⟩, hwithin⟩ ⟨hfit, .inl hne⟩
    · refine iff_of_false ?_ fun h => hfit h.1
      rintro ⟨⟨b', hp, -⟩, -⟩
      rw [processChildOutput_wraps hb fresh hne hlt hfit] at hp
      cases hp

theorem captured_iff_reused : Captured { new with head := true, mem := List.replicate 600 76 } (fun _ _ => 1)
    [[79, 75], [10]] :=
  (captured_iff (fun _ => rfl) _ (by decide)).2 ⟨expandsFit_of_length (by decide), .inl (List.cons_ne_nil _ _)⟩

theorem ok_of_toOption {ε α : Type} {e : Except ε α} {a : α} (h : e.toOption = some a) : e = .ok a := by
  cases e with
  | error e => cases h
  | ok a => exact congrArg Except.ok (Option.some.inj h)

/-- **A child that writes nothing, on an object that has captured something**: the data is the stale first byte. -/
theorem silent_child_not_captured : ∃ b₁ b₂, processChildOutput new (fun _ _ => 1) [[79, 75]] = .ok b₁ ∧
    processChildOutput b₁ (fun _ _ => 1) [] = .ok b₂ ∧ b₂.content = [79] ∧ ¬ Captured b₁ (fun _ _ => 1) [] := by
  obtain ⟨b₁, h₁, h⟩ := Option.bind_eq_some_iff.1
    (show ((processChildOutput new (fun _ _ => 1) [[79, 75]]).toOption.bind fun b₁ =>
      (processChildOutput b₁ (fun _ _ => 1) []).toOption.map content) = some [79] by decide +kernel)
  obtain ⟨b₂, h₂, hc⟩ := Option.map_eq_some_iff.1 h
  have h₁' := ok_of_toOption h₁
  have h₂' := ok_of_toOption h₂
  refine ⟨b₁, b₂, h₁', h₂', hc, ?_⟩
  rintro ⟨⟨b', hb', hc'⟩, -⟩
  rw [h₂'] at hb'
  cases hb'
  rw [hc] at hc'
  cases hc'

theorem execute_of_output {processResult : AdbCmd → Except CmdFault AdbCmd} {cmd cmd' : AdbCmd} {child : ChildProcess}
    {fresh : Nat → Nat → BYTE} {b : BufferItem} (hc : child.createRet = errorSuccess)
    (hout : processChildOutput cmd.biOutput fresh child.reads = .ok b)
    (hp : processResult ⟨b, cmd.biResult⟩ = .ok cmd') :
    execute processResult cmd errorSuccess child fresh = .ok (cmd', errorSuccess) := by
  rw [execute, if_neg (not_not_intro rfl), if_neg (not_not_intro hc), hout]
  dsimp only
  rw [hp]

/-- A command whose child was created returns `ERROR_SUCCESS`, with the result that the class made of the output. -/
theorem execute_some {processResult : AdbCmd → Except CmdFault AdbCmd} {cmd cmd' : AdbCmd} {child : ChildProcess}
    {fresh : Nat → Nat → BYTE} {dwRet : Nat} (hc : child.createRet = errorSuccess)
    (h : execute processResult cmd errorSuccess child fresh = .ok (cmd', dwRet)) :
    dwRet = errorSuccess ∧ ∃ b, processResult { cmd with biOutput := b } = .ok cmd' := by
  rw [execute, if_neg (not_not_intro rfl), if_neg (not_not_intro hc)] at h
  split at h
  · cases h
  · rename_i b _
    split at h
    · cases h
    · cases h
      exact ⟨rfl, b, ‹_›⟩

end AdbCmd

end DevMgr
