import DevMgr.CmdResults
/-!
# GetProp — the properties of a device, through one command object

`AdbCmdGetProp` is executed for one property after another, and `GetResult` is called whatever `Execute` returned.  A
child that cannot be created leaves the result of the query before; one that writes nothing leaves its text.

The layer above describes the object by the queries so far: `heard` is the string in its output buffer, and `held` the
size of its result and the string there.  A query that `Hears` fails no assertion and reads past no allocation.
-/
namespace DevMgr.AdbCmdGetProp

open MiscUtils BufferItem AdbCmd

def processResult (fresh : Nat → BYTE) (cmd : AdbCmd) : Except CmdFault AdbCmd :=
  let size := cmd.biOutput.dataSize
  match cmd.biResult.alloc size fresh with
  | .error e => .error (.assertion e)
  | .ok b => match cmd.szOutput with
    | none => .error .overread
    | some p1 => match matchStringAnywhere p1 (ascii "error") with
      | some _ => match b.put 1 with
        | .error e => .error (.assertion e)
        | .ok (b, p) => .ok { cmd with biResult := b.write p [0] }
      | none =>
        let (out, p2) := parseUnquotedString p1 13 size
        let b := b.write 0 out
        match p2 with
        | none => .ok { cmd with biResult := b }
        | some p2 => match b.put (p1.length - p2.length + 1) with
          | .error e => .error (.assertion e)
          | .ok (b, _) => .ok { cmd with biResult := b }

/-- A query: its child, and the bytes that `new` returns for the output and the result.  A read returns less than the
buffer of the loop, and all of them together less than makes an `Expand` wrap. -/
structure PropQuery where
  child : ChildProcess
  output : Nat → Nat → BYTE
  result : Nat → BYTE
  short : ∀ buf ∈ child.reads, buf.length < sizeofBuf
  few : child.reads.flatten.length + sizeofBuf < 2 ^ 32

def PropQuery.Created (q : PropQuery) : Prop := q.child.createRet = errorSuccess

theorem no_reads_fit : (∀ buf ∈ ([] : List (List BYTE)), buf.length < sizeofBuf) ∧
    ([] : List (List BYTE)).flatten.length + sizeofBuf < 2 ^ 32 := ⟨nofun, by decide⟩

/-- A query whose child cannot be created. -/
def noChild : PropQuery := ⟨⟨errorOutOfMemory, []⟩, fun _ _ => 0, fun _ => 0, no_reads_fit.1, no_reads_fit.2⟩

theorem one_read_fits {line : List BYTE} (h : line.length < sizeofBuf) :
    (∀ buf ∈ [line], buf.length < sizeofBuf) ∧ [line].flatten.length + sizeofBuf < 2 ^ 32 := by
  refine ⟨List.forall_mem_singleton.2 h, ?_⟩
  rw [List.flatten_singleton]
  unfold sizeofBuf at h ⊢
  omega

/-- A query whose child writes one line. -/
def oneLine (line : List BYTE) (h : line.length < sizeofBuf) : PropQuery :=
  ⟨⟨errorSuccess, [line]⟩, fun _ _ => 0, fun _ => 0, (one_read_fits h).1, (one_read_fits h).2⟩

instance (q : PropQuery) : Decidable q.Created := inferInstanceAs (Decidable (_ = _))

/-- `cmd.Execute()`, whose return value nobody looks at. -/
def query (cmd : AdbCmd) (q : PropQuery) : Except CmdFault AdbCmd :=
  match cmd.execute (processResult q.result) errorSuccess q.child q.output with
  | .error e => .error e
  | .ok (cmd, _) => .ok cmd

/-! ## The object by its queries -/

/-- What the child wrote, up to the first zero. -/
def PropQuery.text (q : PropQuery) : List BYTE := q.child.reads.flatten.takeWhile (· ≠ 0)

/-- The value that a query gives: what its child wrote in front of a `'\r'`, unless there is an error in it. -/
def PropQuery.value (q : PropQuery) : Option (List BYTE) :=
  if q.Created ∧ ¬ ascii "error" <:+: q.text ∧ 13 ∈ q.text then some (q.text.takeWhile (· ≠ 13)) else none

/-- The string in the output buffer after queries, the latest of them first. -/
def heard : List PropQuery → Option (List BYTE)
  | [] => none
  | q :: qs =>
    if ¬ q.Created then heard qs
    else if q.child.reads ≠ [] then some q.text
    else if ∃ p ∈ qs, p.Created then heard qs
    else cString (newBytes (q.output 0) sizeofBuf)

def room : List PropQuery → Nat
  | [] => 0
  | q :: qs => if q.Created then max (room qs) (q.child.reads.flatten.length + 1) else room qs

/-- The size of the result for a string, and the string it begins with; the value has room for `cbValue` bytes. -/
def answer (s : List BYTE) (cbValue : Nat) : Nat × List BYTE :=
  if ascii "error" <:+: s then (1, [])
  else if 13 ∈ s then ((s.takeWhile (· ≠ 13)).length + 1, (s.takeWhile (· ≠ 13)).take cbValue)
  else (0, [])

/-- The size of the result after queries, and the string it begins with. -/
def held : List PropQuery → Nat × List BYTE
  | [] => (0, [])
  | q :: qs =>
    if ¬ q.Created then held qs
    else match heard (q :: qs) with
      | none => (0, [])
      | some s => answer s q.child.reads.flatten.length

/-- The string that is heard ends, and the result has room for what is made of it. -/
def Hears (q : PropQuery) (qs : List PropQuery) : Prop :=
  q.Created → ∃ s ∈ heard (q :: qs), (answer s q.child.reads.flatten.length).1 ≤ room (q :: qs)

instance (q : PropQuery) (qs : List PropQuery) : Decidable (Hears q qs) :=
  inferInstanceAs (Decidable (_ → _))

/-- A result of `room` bytes that begins with a string, if it is not empty. -/
structure Left (b : BufferItem) (room : Nat) (a : Nat × List BYTE) : Prop where
  head : b.room ≠ 0 → b.head = true
  room : b.room = room
  size : b.dataLen = a.1
  content : b.content.length = a.1
  str : a.1 ≠ 0 → ∃ t, b.content = a.2 ++ 0 :: t

/-- The object is what the queries have left. -/
structure IsAfter (cmd : AdbCmd) (qs : List PropQuery) : Prop where
  outHead : cmd.biOutput.room ≠ 0 → cmd.biOutput.head = true
  outNew : (¬ ∃ p ∈ qs, p.Created) → cmd.biOutput.room = 0
  outRoom : (∃ p ∈ qs, p.Created) → sizeofBuf ≤ cmd.biOutput.room
  out : (∃ p ∈ qs, p.Created) → cString cmd.biOutput.mem = heard qs
  res : Left cmd.biResult (room qs) (held qs)

def newCmd : AdbCmd := ⟨.new, .new⟩

theorem isAfter_new : IsAfter newCmd [] where
  outHead h := absurd rfl h
  outNew _ := rfl
  outRoom := fun ⟨_, h, _⟩ => absurd h List.not_mem_nil
  out := fun ⟨_, h, _⟩ => absurd h List.not_mem_nil
  res := ⟨fun h => absurd rfl h, rfl, rfl, rfl, fun h => absurd rfl h⟩

/-! ### The output -/

/-- The read loop does not move the data, and adds what it reads. -/
theorem readLoop_some {fresh : Nat → Nat → BYTE} : ∀ {reads : List (List BYTE)} {k : Nat} {b b' : BufferItem},
    readLoop fresh k b reads = .ok b' → b'.data = b.data ∧ b'.dataLen = b.dataLen + reads.flatten.length ∧
      b.room ≤ b'.room ∧ (b.head = true → b'.head = true)
  | [], k, b, b', h => by
    cases h
    exact ⟨rfl, rfl, Nat.le_refl _, id⟩
  | buf :: reads, k, b, b', h => by
    rw [readLoop] at h
    split at h
    · cases h
    rename_i b₁ hb₁
    have hkeep : b₁.data = b.data ∧ b₁.dataLen = b.dataLen ∧ b.room ≤ b₁.room ∧ (b.head = true → b₁.head = true) := by
      split at hb₁
      · obtain ⟨hh, hd, hl, hr⟩ := expand_some hb₁
        exact ⟨hd, hl, by rw [hr]; exact Nat.le_add_right .., fun _ => hh⟩
      · cases hb₁
        exact ⟨rfl, rfl, Nat.le_refl _, id⟩
    split at h
    · cases h
    · rename_i b₂ p hput
      obtain ⟨-, -, rfl⟩ := put_some hput
      obtain ⟨hd, hl, hr, hh⟩ := readLoop_some h
      have hw := length_write_ge { b₁ with tail := b₁.tail + buf.length, dataLen := b₁.dataLen + buf.length } p
        (buf ++ [0])
      refine ⟨hd.trans hkeep.1, ?_, hkeep.2.2.1.trans (hw.trans hr), fun h => hh (hkeep.2.2.2 h)⟩
      rw [hl, List.flatten_cons, List.length_append, ← hkeep.2.1]
      show b₁.dataLen + buf.length + _ = _
      omega

theorem processChildOutput_some {b b' : BufferItem} {fresh : Nat → Nat → BYTE} {reads : List (List BYTE)}
    (hb : b.room ≠ 0 → b.head = true) (h : processChildOutput b fresh reads = .ok b') :
    b'.data = 0 ∧ b'.dataLen = reads.flatten.length + 1 ∧ sizeofBuf ≤ b'.room ∧ b'.head = true := by
  unfold processChildOutput at h
  split at h
  · cases h
  · rename_i b₁ ha
    obtain ⟨b, ha', hcl, -, hr⟩ := alloc_cleared (show 0 < sizeofBuf by decide) hb (fresh 0)
    rw [ha'] at ha
    cases ha
    split at h
    · cases h
    · rename_i b₂ hloop
      obtain ⟨hd₂, hl₂, hr₂, hh₂⟩ := readLoop_some hloop
      split at h
      · cases h
      · rename_i b₃ p hput
        obtain ⟨-, -, rfl⟩ := put_some hput
        cases h
        exact ⟨hd₂.trans hcl.data, by rw [← Nat.zero_add reads.flatten.length, ← hcl.dataLen, ← hl₂], hr.trans hr₂,
          hh₂ hcl.head⟩

theorem not_mem_takeWhile (c : BYTE) (s : List BYTE) : c ∉ s.takeWhile (· ≠ c) := fun h =>
  of_decide_eq_true (List.mem_takeWhile_imp (p := fun x : BYTE => decide (x ≠ c)) h) rfl

/-- The first place of a byte. -/
theorem split_at {c : BYTE} {s : List BYTE} (h : c ∈ s) : ∃ w, s = s.takeWhile (· ≠ c) ++ c :: w := by
  cases hd : s.dropWhile (· ≠ c) with
  | nil =>
    have hall := List.dropWhile_eq_nil_iff.1 hd c h
    exact absurd rfl (of_decide_eq_true hall)
  | cons x w =>
    have hx := List.head?_dropWhile_not (fun x : BYTE => decide (x ≠ c)) s
    rw [hd] at hx
    obtain rfl : x = c := by simpa using hx
    exact ⟨w, by rw [← hd, List.takeWhile_append_dropWhile]⟩

theorem cString_append_zero (u t : List BYTE) : cString (u ++ 0 :: t) = some (u.takeWhile (· ≠ 0)) := by
  rw [cString_eq_some]
  refine ⟨not_mem_takeWhile 0 u, ?_⟩
  by_cases h0 : 0 ∈ u
  · obtain ⟨w, hw⟩ := split_at h0
    refine ⟨w ++ 0 :: t, ?_⟩
    conv_lhs => rw [hw]
    rw [List.append_assoc, List.cons_append]
  · exact ⟨t, by rw [takeWhile_of_free h0]⟩

/-- A child that writes nothing leaves the buffer as it is, or as it was allocated. -/
theorem processChildOutput_nil {b : BufferItem} (hb : b.room ≠ 0 → b.head = true) (fresh : Nat → Nat → BYTE) :
    ∃ b', processChildOutput b fresh [] = .ok b' ∧
      b'.mem = if b.room < sizeofBuf then newBytes (fresh 0) sizeofBuf else b.mem := by
  obtain ⟨b₁, ha, h₁, -, hroom⟩ := alloc_cleared (show 0 < sizeofBuf by decide) hb (fresh 0)
  have hmem := alloc_mem ha
  refine ⟨{ b₁ with tail := 1, dataLen := 1 }, ?_, hmem⟩
  rw [processChildOutput, ha]
  dsimp only
  rw [readLoop]
  dsimp only
  rw [h₁.put (Nat.le_trans (by decide) hroom)]

/-- **What the next query finds in the output buffer.** -/
theorem IsAfter.output {cmd : AdbCmd} {qs : List PropQuery} (h : IsAfter cmd qs) {q : PropQuery} (hc : q.Created) :
    ∃ b, processChildOutput cmd.biOutput q.output q.child.reads = .ok b ∧ b.data = 0 ∧
      b.dataLen = q.child.reads.flatten.length + 1 ∧ sizeofBuf ≤ b.room ∧ b.head = true ∧
      cString b.mem = heard (q :: qs) := by
  rw [heard, if_neg (not_not_intro hc)]
  by_cases hne : q.child.reads = []
  · obtain ⟨b, hb, hmem⟩ := processChildOutput_nil h.outHead q.output
    have hsome := processChildOutput_some h.outHead hb
    rw [hne]
    refine ⟨b, hb, hsome.1, hsome.2.1, hsome.2.2.1, hsome.2.2.2, ?_⟩
    rw [if_neg (not_not_intro rfl), hmem]
    by_cases hp : ∃ p ∈ qs, p.Created
    · rw [if_pos hp, if_neg (Nat.not_lt.2 (h.outRoom hp)), h.out hp]
    · rw [if_neg hp, if_pos (by rw [h.outNew hp]; decide)]
  · obtain ⟨b, t, hb, hmem, -⟩ := processChildOutput_spec h.outHead q.output hne q.short
      (expandsFit_of_length (by rw [Nat.zero_add]; exact q.few))
    have hsome := processChildOutput_some h.outHead hb
    refine ⟨b, hb, hsome.1, hsome.2.1, hsome.2.2.1, hsome.2.2.2, ?_⟩
    rw [hsome.1, List.drop_zero] at hmem
    rw [if_pos hne, hmem, cString_append_zero]
    rfl

/-! ### The result -/

/-- A string stored at the beginning, and as many bytes claimed. -/
theorem left_stored {b : BufferItem} (h : b.Cleared) {str : List BYTE} {n : Nat} (hstr : str.length < n)
    (hn : n ≤ b.room) : Left { b.write 0 (str ++ [0]) with tail := n, dataLen := n } b.room (n, str) := by
  have hlen : (b.write 0 (str ++ [0])).room = b.room :=
    length_write (by rw [List.length_append, List.length_singleton]; omega)
  have hcontent : BufferItem.content { b.write 0 (str ++ [0]) with tail := n, dataLen := n } =
      (b.write 0 (str ++ [0])).mem.take n := by
    rw [content]
    dsimp only
    rw [(h.write 0 _).data, List.drop_zero]
  refine ⟨fun _ => h.head, hlen, rfl, ?_, fun _ => ?_⟩
  · rw [hcontent, List.length_take_of_le]
    exact hn.trans hlen.ge
  · obtain ⟨m, hm⟩ : ∃ m, n - str.length = m + 1 := ⟨n - str.length - 1, by omega⟩
    refine ⟨(b.mem.drop (str ++ [0]).length).take m, ?_⟩
    rw [hcontent, mem_write_zero, List.append_assoc, List.take_append, List.take_of_length_le (Nat.le_of_lt hstr), hm,
      List.singleton_append, List.take_succ_cons]

section
variable {cmd : AdbCmd} {s : List BYTE} {b : BufferItem} {fresh : Nat → BYTE}

/-- An output with an error in it. -/
theorem processResult_error (halloc : cmd.biResult.alloc cmd.biOutput.dataLen fresh = .ok b)
    (hs : cmd.szOutput = some s) (hb : b.Cleared) (herr : ascii "error" <:+: s) (hone : 1 ≤ b.room) :
    ∃ b', processResult fresh cmd = .ok { cmd with biResult := b' } ∧ Left b' b.room (1, []) := by
  obtain ⟨q, hq⟩ : ∃ q, matchStringAnywhere s (ascii "error") = some q :=
    Option.ne_none_iff_exists'.1 fun hn => matchStringAnywhere_eq_none.1 hn herr
  refine ⟨_, ?_, left_stored hb (show ([] : List BYTE).length < 1 by decide) hone⟩
  unfold processResult dataSize
  dsimp only
  rw [halloc]
  dsimp only
  rw [hs]
  dsimp only
  rw [hq]
  dsimp only
  rw [hb.put hone]
  rfl

/-- An output with a value in it, which is cut but counted whole. -/
theorem processResult_value (halloc : cmd.biResult.alloc cmd.biOutput.dataLen fresh = .ok b)
    (hs : cmd.szOutput = some s) (hb : b.Cleared) (herr : ¬ ascii "error" <:+: s) (hcr : 13 ∈ s)
    (hsize : 0 < cmd.biOutput.dataLen) (hroom : cmd.biOutput.dataLen ≤ b.room) {v : List BYTE}
    (hv : s.takeWhile (· ≠ 13) = v) :
    if v.length + 1 ≤ b.room then ∃ b', processResult fresh cmd = .ok { cmd with biResult := b' } ∧
      Left b' b.room (v.length + 1, v.take (cmd.biOutput.dataLen - 1))
    else processResult fresh cmd = .error (.assertion .putEnd) := by
  obtain ⟨w, hw⟩ := split_at hcr
  have hfree := not_mem_takeWhile 13 s
  rw [hv] at hw hfree
  have hparse := parseUnquotedString_of_free hfree w cmd.biOutput.dataLen
  rw [← hw] at hparse
  have hk : s.length - (13 :: w).length = v.length := by rw [hw, List.length_append, Nat.add_sub_cancel]
  have hstr : (v.take (cmd.biOutput.dataLen - 1)).length < v.length + 1 := Nat.lt_succ_of_le (List.length_take_le' ..)
  have hout := hb.write 0 (v.take (cmd.biOutput.dataLen - 1) ++ [0])
  have hlen : (b.write 0 (v.take (cmd.biOutput.dataLen - 1) ++ [0])).room = b.room := by
    apply length_write
    rw [List.length_append, List.length_take, List.length_singleton]
    omega
  unfold processResult dataSize
  dsimp only
  rw [halloc]
  dsimp only
  rw [hs]
  dsimp only
  rw [matchStringAnywhere_eq_none.2 herr]
  dsimp only
  rw [hparse]
  dsimp only
  rw [hk]
  split
  · rename_i hfit
    rw [hout.put (hfit.trans (length_write_ge ..))]
    exact ⟨_, rfl, left_stored hb hstr hfit⟩
  · rename_i hfit
    rw [hout.put_overrun (by rw [hlen]; exact Nat.lt_of_not_le hfit)]

/-- An output with neither. -/
theorem processResult_none (halloc : cmd.biResult.alloc cmd.biOutput.dataLen fresh = .ok b)
    (hs : cmd.szOutput = some s) (hb : b.Cleared) (herr : ¬ ascii "error" <:+: s) (hcr : 13 ∉ s)
    (hsize : 0 < cmd.biOutput.dataLen) (hroom : cmd.biOutput.dataLen ≤ b.room) :
    ∃ b', processResult fresh cmd = .ok { cmd with biResult := b' } ∧ Left b' b.room (0, []) := by
  have hout := parseUnquotedString_fst_length s 13 hsize
  unfold processResult dataSize
  dsimp only
  rw [halloc]
  dsimp only
  rw [hs]
  dsimp only
  rw [matchStringAnywhere_eq_none.2 herr]
  dsimp only
  rw [parseUnquotedString_absent hcr]
  refine ⟨_, rfl, fun _ => hb.head, length_write (by omega), hb.dataLen, ?_, fun h => absurd rfl h⟩
  rw [content_nil (hb.write 0 _).dataLen]
  rfl

end

/-- What the result is made of, when the allocation has room for it. -/
theorem processResult_eq (cmd : AdbCmd) {s : List BYTE} (hres : cmd.biResult.room ≠ 0 → cmd.biResult.head = true)
    (hsize : 0 < cmd.biOutput.dataLen) (hs : cmd.szOutput = some s) (fresh : Nat → BYTE) {r : Nat}
    (hr : r = max cmd.biResult.room cmd.biOutput.dataLen) {a : Nat × List BYTE}
    (ha : a = answer s (cmd.biOutput.dataLen - 1)) :
    if a.1 ≤ r then ∃ b, processResult fresh cmd = .ok { cmd with biResult := b } ∧ Left b r a
    else ∃ e, processResult fresh cmd = .error e := by
  obtain ⟨b, halloc, hb, hroom, hle⟩ := alloc_cleared hsize hres fresh
  obtain rfl : b.room = r := hroom.trans hr.symm
  unfold answer at ha
  by_cases herr : ascii "error" <:+: s
  · rw [if_pos herr] at ha
    subst ha
    rw [if_pos (hle.trans' hsize)]
    exact processResult_error halloc hs hb herr (hle.trans' hsize)
  · rw [if_neg herr] at ha
    by_cases hcr : 13 ∈ s
    · rw [if_pos hcr] at ha
      subst ha
      have h := processResult_value halloc hs hb herr hcr hsize hle rfl
      split at h
      · rw [if_pos ‹_›]
        exact h
      · rw [if_neg ‹_›]
        exact ⟨_, h⟩
    · rw [if_neg hcr] at ha
      subst ha
      rw [if_pos (Nat.zero_le _)]
      exact processResult_none halloc hs hb herr hcr hsize hle

/-! ### A query -/

section
variable {cmd : AdbCmd} {qs : List PropQuery} {q : PropQuery}

/-- A child that cannot be created leaves the object as it is. -/
theorem IsAfter.keep (h : IsAfter cmd qs) (hc : ¬ q.Created) : IsAfter cmd (q :: qs) := by
  have hex : (∃ p ∈ q :: qs, p.Created) ↔ ∃ p ∈ qs, p.Created := by
    rw [List.exists_mem_cons_iff]
    exact or_iff_right hc
  refine ⟨h.outHead, fun hn => h.outNew fun hp => hn (hex.2 hp), fun hp => h.outRoom (hex.1 hp), fun hp => ?_, ?_⟩
  · rw [heard, if_pos hc]
    exact h.out (hex.1 hp)
  · rw [room, if_neg hc, held, if_pos hc]
    exact h.res

theorem query_keep (cmd : AdbCmd) (hc : ¬ q.Created) : AdbCmdGetProp.query cmd q = .ok cmd := by
  unfold AdbCmdGetProp.query AdbCmd.execute
  rw [if_neg (not_not_intro rfl), if_pos (show q.child.createRet ≠ errorSuccess from hc)]

/-- **A query keeps the description of the object**, when it finds a string that ends and room for the answer. -/
theorem IsAfter.query (h : IsAfter cmd qs) (hq : Hears q qs) :
    ∃ cmd', query cmd q = .ok cmd' ∧ IsAfter cmd' (q :: qs) := by
  by_cases hc : q.Created
  · obtain ⟨b, hb, hd, hl, hr, hh, hout⟩ := h.output hc
    obtain ⟨s, hs, hfit⟩ := hq hc
    replace hs : heard (q :: qs) = some s := hs
    have hroom : room (q :: qs) = max cmd.biResult.room b.dataLen := by rw [room, if_pos hc, h.res.room, hl]
    have hlen : q.child.reads.flatten.length = b.dataLen - 1 := by omega
    have hres := processResult_eq { cmd with biOutput := b } (s := s) h.res.head (show 0 < b.dataLen by omega)
      (by rw [szOutput, hd, List.drop_zero, hout, hs]) q.result hroom rfl
    rw [← hlen, if_pos hfit] at hres
    obtain ⟨b', hproc, hleft⟩ := hres
    unfold AdbCmdGetProp.query AdbCmd.execute
    rw [if_neg (not_not_intro rfl), if_neg (not_not_intro (show q.child.createRet = errorSuccess from hc)), hb]
    dsimp only
    rw [hproc]
    refine ⟨_, rfl, fun _ => hh, fun hn => ?_, fun _ => hr, fun _ => hout, ?_⟩
    · exact absurd ⟨q, List.mem_cons_self, hc⟩ hn
    · rw [held, if_neg (not_not_intro hc), hs]
      exact hleft
  · exact ⟨cmd, query_keep cmd hc, h.keep hc⟩

theorem IsAfter.query_fault (h : IsAfter cmd qs) (hq : ¬ Hears q qs) : ∃ e, AdbCmdGetProp.query cmd q = .error e := by
  have hc : q.Created := by
    by_contra hc
    exact hq fun h => absurd h hc
  obtain ⟨b, hb, hd, hl, hr, hh, hout⟩ := h.output hc
  unfold AdbCmdGetProp.query AdbCmd.execute
  rw [if_neg (not_not_intro rfl), if_neg (not_not_intro (show q.child.createRet = errorSuccess from hc)), hb]
  dsimp only
  cases hs : heard (q :: qs) with
  | none =>
    obtain ⟨b₁, halloc, -⟩ := alloc_cleared (show 0 < b.dataLen by omega) h.res.head q.result
    have hproc : processResult q.result { cmd with biOutput := b } = .error .overread := by
      unfold processResult
      dsimp only
      rw [show b.dataSize = b.dataLen from rfl, halloc]
      dsimp only
      rw [szOutput, hd, List.drop_zero, hout, hs]
    rw [hproc]
    exact ⟨_, rfl⟩
  | some s =>
    have hfit : ¬ (answer s q.child.reads.flatten.length).1 ≤ room (q :: qs) := fun hfit => hq fun _ => ⟨s, hs, hfit⟩
    have hroom : room (q :: qs) = max cmd.biResult.room b.dataLen := by rw [room, if_pos hc, h.res.room, hl]
    have hlen : q.child.reads.flatten.length = b.dataLen - 1 := by omega
    have hres := processResult_eq { cmd with biOutput := b } (s := s) h.res.head (show 0 < b.dataLen by omega)
      (by rw [szOutput, hd, List.drop_zero, hout, hs]) q.result hroom rfl
    rw [← hlen, if_neg hfit] at hres
    obtain ⟨e, he⟩ := hres
    rw [he]
    exact ⟨_, rfl⟩

/-- **What `GetResult` gives to a buffer**: nothing where the result is empty or too long, else a string and more. -/
theorem IsAfter.getResult (h : IsAfter cmd qs) (dwBytes : Nat) :
    (dwBytes < (held qs).1 → cmd.getResult dwBytes = none) ∧
      ((held qs).1 ≤ dwBytes → ∃ bs, cmd.getResult dwBytes = some bs ∧ bs.length = (held qs).1 ∧
        ((held qs).1 ≠ 0 → ∃ t, bs = (held qs).2 ++ 0 :: t)) := by
  have hsize : cmd.biResult.dataSize = (held qs).1 := h.res.size
  unfold AdbCmd.getResult
  rw [hsize]
  exact ⟨fun hlt => if_pos hlt, fun hle => ⟨_, if_neg (Nat.not_lt.2 hle), h.res.content, h.res.str⟩⟩

end

/-! ### The values -/

theorem heard_of_text {q : PropQuery} (qs : List PropQuery) (hc : q.Created) (hne : q.child.reads ≠ []) :
    heard (q :: qs) = some q.text := by rw [heard, if_neg (not_not_intro hc), if_pos hne]

theorem PropQuery.text_nil {q : PropQuery} (h : q.child.reads = []) : q.text = [] := by
  rw [text, h]
  rfl

/-- A value ends where the first `'\r'` is. -/
theorem mem_take_iff {s : List BYTE} {n : Nat} : 13 ∈ s.take n ↔ 13 ∈ s ∧ (s.takeWhile (· ≠ 13)).length < n := by
  constructor
  · intro h
    have hs := List.mem_of_mem_take h
    refine ⟨hs, ?_⟩
    by_contra hge
    obtain ⟨w, hw⟩ := split_at hs
    rw [hw, List.take_append_of_le_length (Nat.le_of_not_lt hge)] at h
    exact not_mem_takeWhile 13 s (List.mem_of_mem_take h)
  · rintro ⟨hs, hlt⟩
    obtain ⟨w, hw⟩ := split_at hs
    obtain ⟨m, hm⟩ : ∃ m, n - (s.takeWhile (· ≠ 13)).length = m + 1 := ⟨n - (s.takeWhile (· ≠ 13)).length - 1, by omega⟩
    rw [hw, List.take_append, hm, List.take_succ_cons]
    exact List.mem_append_right _ List.mem_cons_self

/-- **A query that its child answers** finds its own text, and gives the value of its property, or nothing. -/
theorem held_of_text {q : PropQuery} (qs : List PropQuery) (hc : q.Created) (hne : q.child.reads ≠ []) :
    Hears q qs ∧ held (q :: qs) = if ascii "error" <:+: q.text then (1, [])
      else if 13 ∈ q.text then ((q.text.takeWhile (· ≠ 13)).length + 1, q.text.takeWhile (· ≠ 13)) else (0, []) := by
  have hheard := heard_of_text qs hc hne
  have hvalue : 13 ∈ q.text → (q.text.takeWhile (· ≠ 13)).length < q.text.length := by
    intro h
    obtain ⟨w, hw⟩ := split_at h
    conv_rhs => rw [hw]
    rw [List.length_append, List.length_cons]
    omega
  have htext : q.text.length ≤ q.child.reads.flatten.length := (List.takeWhile_sublist _).length_le
  constructor
  · intro _
    refine ⟨q.text, hheard, ?_⟩
    rw [room, if_pos hc]
    have hmax := Nat.le_max_right (room qs) (q.child.reads.flatten.length + 1)
    unfold answer
    split
    · exact Nat.le_trans (Nat.le_add_left 1 _) hmax
    · split
      · have := hvalue ‹_›
        dsimp only
        omega
      · exact Nat.zero_le _
  · rw [held, if_neg (not_not_intro hc), hheard]
    dsimp only
    unfold answer
    split
    · rfl
    · split
      · have := hvalue ‹_›
        rw [List.take_of_length_le (show (q.text.takeWhile (· ≠ 13)).length ≤ q.child.reads.flatten.length by omega)]
      · rfl

end DevMgr.AdbCmdGetProp
