import DevMgr.EnumDevices
/-!
# EnumListing — the lines of `adb devices` and the result that lists them

`AdbCmdEnumDev::ProcessResult` on a text as its lines: the loop of `scanDevices` against the lines that it finds
(`scanLines`) and gets to (`reached`).  A line that counts takes an id of the result and an entry's worth of its size; a
line that does not count takes the size only.
-/
namespace DevMgr

open MiscUtils BufferItem

/-- `dwDevNum` of the result. -/
def AdbCmd.dwDevNum (cmd : AdbCmd) : Option DWORD := dwordField (cmd.biResult.mem.drop cmd.biResult.data) 8

/-- `szDevId[i]` of the result. -/
def AdbCmd.szDevId (cmd : AdbCmd) (i : Nat) : Option (List BYTE) :=
  cString ((cmd.biResult.mem.drop cmd.biResult.data).drop (sizeofEnumHdr + maxDevIdLen * i))

namespace AdbCmdEnumDev

/-- The lines that the loop finds: what it copies of the id, and whether the line counts. -/
def scanLines (p : List BYTE) : List (List BYTE × Bool) :=
  match _h : scanState p with
  | none => []
  | some (q, counts) => ((parseUnquotedString p 9 maxDevIdLen).1, counts) :: scanLines q
termination_by p.length
decreasing_by exact scanState_lt _h

/-- The lines that the loop gets to, from its `i` on: it ends when `MAX_ADB_DEV_CNT` lines have counted. -/
def reached {α : Type} : Nat → List (α × Bool) → List (α × Bool)
  | _, [] => []
  | i, l :: ls => if i < maxAdbDevCnt then l :: reached (if l.2 then i + 1 else i) ls else []

/-- The lines that count. -/
def counted {α : Type} (ls : List (α × Bool)) : List α := (ls.filter Prod.snd).map Prod.fst

/-- The lines of an output. -/
def linesOf (szOutput : List BYTE) : List (List BYTE × Bool) :=
  match matchStringBeginning szOutput banner with
  | none => []
  | some q => scanLines (skipCRLFs q true).1

section
variable {α : Type}

theorem reached_cons {i : Nat} (hi : i < maxAdbDevCnt) (x : α) (counts : Bool) (ls : List (α × Bool)) :
    reached i ((x, counts) :: ls) = (x, counts) :: reached (if counts then i + 1 else i) ls := if_pos hi

@[simp] theorem counted_nil : counted ([] : List (α × Bool)) = [] := rfl

theorem counted_cons (l : α × Bool) (ls : List (α × Bool)) :
    counted (l :: ls) = if l.2 then l.1 :: counted ls else counted ls := by
  unfold counted
  cases h : l.2 with
  | true => simp [h]
  | false => simp [h]

theorem counted_length_eq_iff (ls : List (α × Bool)) : (counted ls).length = ls.length ↔ ∀ l ∈ ls, l.2 = true := by
  rw [counted, List.length_map, List.length_filter_eq_length_iff]

/-- A listing of few lines is read to its end. -/
theorem reached_of_few (ls : List (α × Bool)) : ∀ {i : Nat}, i + ls.length ≤ maxAdbDevCnt → reached i ls = ls := by
  induction ls with
  | nil => exact fun _ => rfl
  | cons l ls ih =>
    intro i h
    rw [List.length_cons] at h
    rw [reached, if_pos (by omega), ih]
    split
    · omega
    · omega

/-- **All the lines that the loop gets to count exactly when the first `MAX_ADB_DEV_CNT` do.** -/
theorem reached_all_count (ls : List (α × Bool)) : ∀ {i : Nat}, i ≤ maxAdbDevCnt →
    ((∀ l ∈ reached i ls, l.2 = true) ↔ ∀ l ∈ ls.take (maxAdbDevCnt - i), l.2 = true) := by
  induction ls with
  | nil => intro i _; simp [reached]
  | cons l ls ih =>
    intro i hi
    rw [reached]
    by_cases hlt : i < maxAdbDevCnt
    · obtain ⟨n, hn⟩ : ∃ n, maxAdbDevCnt - i = n + 1 := ⟨maxAdbDevCnt - i - 1, by omega⟩
      rw [if_pos hlt, hn, List.take_succ_cons]
      simp only [List.mem_cons, forall_eq_or_imp]
      apply and_congr_right
      intro hl
      have hn' : n = maxAdbDevCnt - (i + 1) := by omega
      rw [if_pos hl, ih hlt, hn']
    · have hn : maxAdbDevCnt - i = 0 := by omega
      rw [if_neg hlt, hn, List.take_zero]

theorem reached_counted_length (ls : List (α × Bool)) : ∀ {i : Nat}, i ≤ maxAdbDevCnt →
    i + (counted (reached i ls)).length ≤ maxAdbDevCnt := by
  induction ls with
  | nil => exact fun hi => hi
  | cons l ls ih =>
    intro i hi
    rw [reached]
    split
    · rename_i hlt
      rw [counted_cons]
      split
      · have := ih (i := i + 1) hlt
        rw [List.length_cons]
        omega
      · exact ih hi
    · exact hi

end

variable {b b' : BufferItem} {pEnumDevices i i' : Nat} {p : List BYTE}

theorem scanLines_of_none (h : scanState p = none) : scanLines p = [] := by
  rw [scanLines]
  split
  · rfl
  · rename_i hq
    rw [h] at hq
    cases hq

theorem scanLines_of_some {q : List BYTE} {counts : Bool} (h : scanState p = some (q, counts)) :
    scanLines p = ((parseUnquotedString p 9 maxDevIdLen).1, counts) :: scanLines q := by
  rw [scanLines]
  split
  · rename_i hq
    rw [h] at hq
    cases hq
  · rename_i hq
    rw [h] at hq
    cases hq
    rfl

theorem scanDevices_of_le (hi : maxAdbDevCnt ≤ i) : scanDevices pEnumDevices b i p = .ok (b, i) := by
  rw [scanDevices, if_neg (Nat.not_lt.2 hi)]

theorem reached_of_le {α : Type} (hi : maxAdbDevCnt ≤ i) (ls : List (α × Bool)) : reached i ls = [] := by
  cases ls with
  | nil => rfl
  | cons l ls => exact if_neg (Nat.not_lt.2 hi)

/-- What the loop has stored when it has parsed an id. -/
def stored (pEnumDevices : Nat) (b : BufferItem) (i : Nat) (p : List BYTE) : BufferItem :=
  b.write (pEnumDevices + sizeofEnumHdr + maxDevIdLen * i) (parseUnquotedString p 9 maxDevIdLen).1

theorem scanDevices_of_none (hi : i < maxAdbDevCnt) (h : scanState p = none) :
    scanDevices pEnumDevices b i p = .ok (stored pEnumDevices b i p, i) := by
  rw [scanDevices, if_pos hi]
  split
  · rfl
  · rename_i hq
    rw [h] at hq
    cases hq

theorem scanDevices_of_some (hi : i < maxAdbDevCnt) {q : List BYTE} {counts : Bool}
    (h : scanState p = some (q, counts)) :
    scanDevices pEnumDevices b i p = match (stored pEnumDevices b i p).put maxDevIdLen with
      | .error e => .error e
      | .ok (b, _) => scanDevices pEnumDevices b (if counts then i + 1 else i) q := by
  rw [scanDevices, if_pos hi]
  split
  · rename_i hq
    rw [h] at hq
    cases hq
  · rename_i hq
    rw [h] at hq
    cases hq
    rfl

/-- A line that the loop gets to, when the loop has gone through. -/
theorem scanDevices_line (hi : i < maxAdbDevCnt) {q : List BYTE} {counts : Bool}
    (hq : scanState p = some (q, counts)) (h : scanDevices pEnumDevices b i p = .ok (b', i')) :
    ∃ b₁, b₁.mem = (stored pEnumDevices b i p).mem ∧ b₁.dataLen = b.dataLen + maxDevIdLen ∧
      scanDevices pEnumDevices b₁ (if counts then i + 1 else i) q = .ok (b', i') := by
  rw [scanDevices_of_some hi hq] at h
  split at h
  · cases h
  · rename_i b₁ p₁ hput
    obtain ⟨-, -, rfl⟩ := put_some hput
    exact ⟨{ stored pEnumDevices b i p with
      tail := (stored pEnumDevices b i p).tail + maxDevIdLen
      dataLen := (stored pEnumDevices b i p).dataLen + maxDevIdLen }, rfl, rfl, h⟩

/-- What the loop leaves in `i`, and the size of the data. -/
theorem scanDevices_counts (h : scanDevices pEnumDevices b i p = .ok (b', i')) :
    i' = i + (counted (reached i (scanLines p))).length ∧
      b'.dataLen = b.dataLen + maxDevIdLen * (reached i (scanLines p)).length := by
  fun_induction scanLines p generalizing b i with
  | case1 p hn =>
    rw [reached, counted_nil]
    by_cases hi : i < maxAdbDevCnt
    · rw [scanDevices_of_none hi hn] at h
      cases h
      exact ⟨rfl, rfl⟩
    · rw [scanDevices_of_le (Nat.le_of_not_lt hi)] at h
      cases h
      exact ⟨rfl, rfl⟩
  | case2 p q counts hq ih =>
    by_cases hi : i < maxAdbDevCnt
    · obtain ⟨b₁, -, hlen, h₁⟩ := scanDevices_line hi hq h
      obtain ⟨h1, h2⟩ := ih h₁
      rw [reached_cons hi, counted_cons, List.length_cons, Nat.mul_succ]
      refine ⟨?_, by rw [h2, hlen]; omega⟩
      cases counts with
      | true =>
        simp only [if_true, List.length_cons] at h1 ⊢
        omega
      | false =>
        simp only [Bool.false_eq_true, if_false] at h1 ⊢
        exact h1
    · rw [scanDevices_of_le (Nat.le_of_not_lt hi)] at h
      cases h
      rw [reached_of_le (Nat.le_of_not_lt hi)]
      exact ⟨rfl, rfl⟩

/-- Every `Put` of the loop stays inside the allocation when there is room for the lines that it gets to. -/
theorem scanDevices_ok (hh : b.head = true)
    (hfit : b.tail + maxDevIdLen * (reached i (scanLines p)).length ≤ b.room) :
    ∃ b' i', scanDevices pEnumDevices b i p = .ok (b', i') := by
  fun_induction scanLines p generalizing b i with
  | case1 p hn =>
    by_cases hi : i < maxAdbDevCnt
    · exact ⟨_, _, scanDevices_of_none hi hn⟩
    · exact ⟨_, _, scanDevices_of_le (Nat.le_of_not_lt hi)⟩
  | case2 p q counts hq ih =>
    by_cases hi : i < maxAdbDevCnt
    · rw [reached_cons hi, List.length_cons, Nat.mul_succ] at hfit
      have hroom : b.room ≤ (stored pEnumDevices b i p).room := length_write_ge ..
      have hput : b.tail + maxDevIdLen ≤ (stored pEnumDevices b i p).room := by omega
      rw [scanDevices_of_some hi hq, put_of_room (b := stored pEnumDevices b i p) hh hput]
      dsimp only
      apply ih (b := { stored pEnumDevices b i p with
        tail := (stored pEnumDevices b i p).tail + maxDevIdLen
        dataLen := (stored pEnumDevices b i p).dataLen + maxDevIdLen }) hh
      show b.tail + maxDevIdLen + _ ≤ (stored pEnumDevices b i p).room
      omega
    · exact ⟨_, _, scanDevices_of_le (Nat.le_of_not_lt hi)⟩

section
variable (hi : i < maxAdbDevCnt) (hroom : pEnumDevices + sizeofEnumHdr + maxDevIdLen * maxAdbDevCnt ≤ b.room)
include hi hroom

theorem place_le : pEnumDevices + sizeofEnumHdr + maxDevIdLen * i ≤ b.mem.length := by
  have hmul := Nat.mul_le_mul_left maxDevIdLen (Nat.le_of_lt hi)
  have hr : pEnumDevices + sizeofEnumHdr + maxDevIdLen * maxAdbDevCnt ≤ b.mem.length := hroom
  omega

theorem stored_below {o : Nat} (ho : o < pEnumDevices + sizeofEnumHdr + maxDevIdLen * i) :
    (stored pEnumDevices b i p).mem[o]? = b.mem[o]? :=
  getElem?_write (place_le hi hroom) _ (.inl ho)

theorem stored_at {j : Nat} (hj : j < (parseUnquotedString p 9 maxDevIdLen).1.length) :
    (stored pEnumDevices b i p).mem[pEnumDevices + sizeofEnumHdr + maxDevIdLen * i + j]? =
      (parseUnquotedString p 9 maxDevIdLen).1[j]? := by
  rw [← List.getElem?_drop, stored, drop_write_self (place_le hi hroom), List.getElem?_append_left hj]

end

/-- **The ids that count are in their places**, and nothing before the place of the first of them has changed. -/
theorem scanDevices_ids (hroom : pEnumDevices + sizeofEnumHdr + maxDevIdLen * maxAdbDevCnt ≤ b.room)
    (h : scanDevices pEnumDevices b i p = .ok (b', i')) :
    (∀ o, o < pEnumDevices + sizeofEnumHdr + maxDevIdLen * i → b'.mem[o]? = b.mem[o]?) ∧
    ∀ k id, (counted (reached i (scanLines p)))[k]? = some id →
      b'.Holds (pEnumDevices + sizeofEnumHdr + maxDevIdLen * (i + k)) id := by
  fun_induction scanLines p generalizing b i with
  | case1 p hn =>
    refine ⟨fun o ho => ?_, fun k id hk => by cases hk⟩
    by_cases hi : i < maxAdbDevCnt
    · rw [scanDevices_of_none hi hn] at h
      cases h
      exact stored_below hi hroom ho
    · rw [scanDevices_of_le (Nat.le_of_not_lt hi)] at h
      cases h
      rfl
  | case2 p q counts hq ih =>
    by_cases hi : i < maxAdbDevCnt
    · obtain ⟨b₁, hmem, -, h₁⟩ := scanDevices_line hi hq h
      have hroom₁ : pEnumDevices + sizeofEnumHdr + maxDevIdLen * maxAdbDevCnt ≤ b₁.room := by
        have hr : b₁.room = (stored pEnumDevices b i p).room := congrArg List.length hmem
        rw [hr]
        exact hroom.trans (length_write_ge ..)
      obtain ⟨h1, h2⟩ := ih hroom₁ h₁
      rw [reached_cons hi, counted_cons]
      cases counts with
      | false =>
        refine ⟨fun o ho => ?_, fun k id hk => h2 k id hk⟩
        rw [h1 o ho, hmem, stored_below hi hroom ho]
      | true =>
        rw [if_pos rfl] at h1
        refine ⟨fun o ho => ?_, fun k id hk j hj => ?_⟩
        · rw [h1 o (by rw [Nat.mul_succ]; omega), hmem, stored_below hi hroom ho]
        · cases k with
          | zero =>
            cases Option.some.inj hk
            have hlen := parseUnquotedString_fst_length p 9 (show 0 < maxDevIdLen by decide)
            dsimp only at hj
            rw [Nat.add_zero, h1 _ (by rw [Nat.mul_succ]; omega), hmem, stored_at hi hroom hj]
          | succ k =>
            have hk' := h2 k id hk j hj
            rw [if_pos rfl, Nat.add_right_comm i 1 k] at hk'
            exact hk'
    · rw [scanDevices_of_le (Nat.le_of_not_lt hi)] at h
      cases h
      rw [reached_of_le (Nat.le_of_not_lt hi)]
      exact ⟨fun _ _ => rfl, fun k id hk => by cases hk⟩

/-- The stores behind the loop. -/
def finish (b : BufferItem) (i : Nat) : BufferItem :=
  ((b.write 8 (dwordBytes (.ofNat i))).write 4 (dwordBytes (.ofNat errorSuccess))).write 0
    (dwordBytes (.ofNat b.dataSize))

theorem finish_words (hr : sizeofEnumHdr ≤ b.room) (i : Nat) :
    dwordField (finish b i).mem 0 = some (.ofNat b.dataSize) ∧
      dwordField (finish b i).mem 4 = some (.ofNat errorSuccess) ∧
      dwordField (finish b i).mem 8 = some (.ofNat i) := by
  have h8 : 8 ≤ b.mem.length := Nat.le_trans (by decide) hr
  have h4 : 4 ≤ (b.write 8 (dwordBytes (.ofNat i))).mem.length :=
    Nat.le_trans (show 4 ≤ 8 by decide) (h8.trans (length_write_ge ..))
  unfold finish
  refine ⟨dwordField_write_self (Nat.zero_le _) _, ?_, ?_⟩
  · rw [store_size _ (Nat.le_refl 4), dwordField_write_self h4]
  · rw [store_size _ (by decide), dwordField_write_of_sep h4 _ (.inr (Nat.le_refl 8)), dwordField_write_self h8]

theorem finish_ids (hr : sizeofEnumHdr ≤ b.room) (i : Nat) {o : Nat} (ho : sizeofEnumHdr ≤ o) :
    (finish b i).mem[o]? = b.mem[o]? := by
  have h8 : 8 ≤ b.mem.length := Nat.le_trans (by decide) hr
  have h4 : 4 ≤ (b.write 8 (dwordBytes (.ofNat i))).mem.length :=
    Nat.le_trans (show 4 ≤ 8 by decide) (h8.trans (length_write_ge ..))
  have ho' : 12 ≤ o := ho
  have hlen : ∀ x, (dwordBytes x).length = 4 := fun _ => rfl
  unfold finish
  rw [getElem?_write (Nat.zero_le _) _ (.inr (by rw [hlen]; omega)),
    getElem?_write h4 _ (.inr (by rw [hlen]; omega)), getElem?_write h8 _ (.inr (by rw [hlen]; omega))]

/-- The result before the lines, which lists no device. -/
def Fixed (b : BufferItem) : Prop :=
  ResultHdr b (sizeofEnumHdr + maxDevIdLen * maxAdbDevCnt) (.ofNat errorNotSupported)

theorem Fixed.room_hdr (h : Fixed b) : sizeofEnumHdr ≤ b.room := Nat.le_trans (by decide) h.room

/-- **`ProcessResult` is its loop**, between an allocation and the last stores. -/
theorem processResult_eq {cmd : AdbCmd} (hb : cmd.biResult.room ≠ 0 → cmd.biResult.head = true) {szOutput : List BYTE}
    (hs : cmd.szOutput = some szOutput) (fresh : Nat → BYTE) : ∃ b, Fixed b ∧
    processResult fresh cmd = match matchStringBeginning szOutput banner with
      | none => .ok { cmd with biResult := b.write 0 (dwordBytes (.ofNat b.dataSize)) }
      | some q => match scanDevices 0 b 0 (skipCRLFs q true).1 with
        | .error e => .error (.assertion e)
        | .ok (b, i) => .ok { cmd with biResult := finish b i } := by
  obtain ⟨b₀, b₁, b, ha, hput, hb, hf⟩ := alloc_resultHdr hb
    (show sizeofEnumHdr ≤ sizeofRetEnumDevices + maxDevIdLen * (maxAdbDevCnt - 1) by decide) fresh
    (.ofNat errorNotSupported)
  refine ⟨b, hf, ?_⟩
  unfold processResult
  simp only [hs, ha, hput, Nat.zero_add, hb]
  rfl

/-- The result is as large as the devices that it lists make it. -/
def SizeDisciplined (fresh : Nat → BYTE) (cmd : AdbCmd) : Prop :=
  ∃ cmd' dwDevNum, processResult fresh cmd = .ok cmd' ∧ cmd'.dwDevNum = some dwDevNum ∧
    cmd'.biResult.dataSize = sizeofEnumHdr + maxDevIdLen * dwDevNum.toNat ∧
    cmd'.dwSize = some (.ofNat (sizeofEnumHdr + maxDevIdLen * dwDevNum.toNat))

/-- What a loop that has gone through leaves as the result. -/
theorem finish_of_scan {b₁ : BufferItem} (hf : Fixed b) (h : scanDevices 0 b 0 p = .ok (b₁, i)) :
    (finish b₁ i).data = 0 ∧ sizeofEnumHdr ≤ b₁.room ∧ i = (counted (reached 0 (scanLines p))).length ∧
      (UInt32.ofNat i).toNat = i ∧
      (finish b₁ i).dataSize = sizeofEnumHdr + maxDevIdLen * (reached 0 (scanLines p)).length := by
  obtain ⟨hr, hd⟩ := scanDevices_keeps h
  obtain ⟨hi, hl⟩ := scanDevices_counts h
  rw [Nat.zero_add] at hi
  have hle := reached_counted_length (scanLines p) (Nat.zero_le maxAdbDevCnt)
  rw [Nat.zero_add, ← hi] at hle
  refine ⟨hd.trans hf.data, hf.room_hdr.trans hr, hi, ?_, ?_⟩
  · rw [UInt32.toNat_ofNat']
    exact Nat.mod_eq_of_lt (Nat.lt_of_le_of_lt hle (by decide))
  · show b₁.dataLen = _
    rw [hl, hf.dataLen]

/-- **The result is as large as its devices make it exactly when the first `MAX_ADB_DEV_CNT` lines count**: a line
that does not count (`offline`, `unauthorized`) takes the size of an entry that nothing lists. -/
theorem sizeDisciplined_iff {cmd : AdbCmd} (hb : cmd.biResult.room ≠ 0 → cmd.biResult.head = true)
    {szOutput : List BYTE} (hs : cmd.szOutput = some szOutput) (fresh : Nat → BYTE) :
    SizeDisciplined fresh cmd ↔ ∀ l ∈ (linesOf szOutput).take maxAdbDevCnt, l.2 = true := by
  obtain ⟨b, hf, hp⟩ := processResult_eq hb hs fresh
  unfold linesOf
  cases hm : matchStringBeginning szOutput banner with
  | none =>
    rw [hm] at hp
    refine iff_of_true ⟨_, 0, hp, ?_, hf.dataLen, ?_⟩ fun l hl => by cases hl
    · show dwordField (List.drop b.data _) 8 = _
      rw [hf.data, List.drop_zero, store_size _ (by decide), dwordField_of_holds hf.count]
    · show dwordField (List.drop b.data _) 0 = _
      rw [hf.data, List.drop_zero, dwordField_write_self (Nat.zero_le _)]
      exact congrArg (fun n => some (UInt32.ofNat n)) hf.dataLen
  | some q =>
    rw [hm] at hp
    dsimp only at hp ⊢
    have htake := reached_all_count (scanLines (skipCRLFs q true).1) (Nat.zero_le maxAdbDevCnt)
    rw [Nat.sub_zero] at htake
    rw [← htake, ← counted_length_eq_iff]
    constructor
    · rintro ⟨cmd', dwDevNum, hp', hnum, hsize, -⟩
      rw [hp] at hp'
      split at hp'
      · cases hp'
      · rename_i b₁ i hscan
        obtain ⟨hd, hr, hi, hmod, hsize'⟩ := finish_of_scan hf hscan
        cases hp'
        change dwordField (List.drop (finish b₁ i).data _) 8 = _ at hnum
        rw [hd, List.drop_zero, (finish_words hr i).2.2] at hnum
        cases hnum
        rw [hmod, hsize'] at hsize
        rw [← hi]
        exact (Nat.eq_of_mul_eq_mul_left (by decide) (Nat.add_left_cancel hsize)).symm
    · intro hall
      have hle := reached_counted_length (scanLines (skipCRLFs q true).1) (Nat.zero_le maxAdbDevCnt)
      rw [Nat.zero_add, hall] at hle
      have hfit : b.tail + maxDevIdLen * (reached 0 (scanLines (skipCRLFs q true).1)).length ≤ b.room := by
        rw [hf.tail]
        exact (Nat.add_le_add_left (Nat.mul_le_mul_left _ hle) _).trans hf.room
      obtain ⟨b₁, i, hscan⟩ : ∃ b₁ i, scanDevices 0 b 0 (skipCRLFs q true).1 = .ok (b₁, i) :=
        scanDevices_ok hf.head hfit
      obtain ⟨hd, hr, hi, hmod, hsize⟩ := finish_of_scan hf hscan
      rw [hscan] at hp
      rw [← hall, ← hi] at hsize
      refine ⟨_, .ofNat i, hp, ?_, ?_, ?_⟩
      · show dwordField (List.drop (finish b₁ i).data _) 8 = _
        rw [hd, List.drop_zero, (finish_words hr i).2.2]
      · rw [hmod]
        exact hsize
      · show dwordField (List.drop (finish b₁ i).data _) 0 = _
        rw [hd, List.drop_zero, (finish_words hr i).1, hmod, ← hsize]
        rfl

theorem sizeDisciplined_iff_attached :
    SizeDisciplined (fun _ => 0) (AdbCmd.ofOutput (ascii "List of devices attached \nAB12\tdevice\n")) := by
  have hs : (AdbCmd.ofOutput (ascii "List of devices attached \nAB12\tdevice\n")).szOutput =
      some (ascii "List of devices attached \nAB12\tdevice\n") := by decide
  exact (sizeDisciplined_iff (fun h => absurd rfl h) hs _).2 (by decide +kernel)

/-- **An offline device** takes an entry of the size, but is not listed. -/
theorem offline_not_sizeDisciplined :
    ¬ SizeDisciplined (fun _ => 0) (AdbCmd.ofOutput (ascii "List of devices attached \nAB12\toffline\n")) := by
  obtain ⟨cmd, hcmd, h⟩ := Option.map_eq_some_iff.1
    (show (processResult (fun _ => 0)
      (AdbCmd.ofOutput (ascii "List of devices attached \nAB12\toffline\n"))).toOption.map
        (fun cmd => (cmd.dwDevNum, cmd.biResult.dataSize)) = some (some 0, 76) by decide +kernel)
  obtain ⟨hnum, hsize⟩ := Prod.mk.inj h
  rintro ⟨cmd', dwDevNum, hp, hnum', hsize', -⟩
  rw [AdbCmd.ok_of_toOption hcmd] at hp
  cases hp
  rw [hnum] at hnum'
  cases hnum'
  rw [hsize] at hsize'
  exact absurd hsize' (by decide)

/-! ## Well-formed listings -/

/-- A line, with the `CR`s and `LF`s behind it. -/
structure ListingLine where
  id : List BYTE
  state : List BYTE
  sep : List BYTE
  id_ok : ∀ c ∈ id, c ≠ 9 ∧ c ≠ 0 ∧ isCrlf c = false
  state_ok : ∀ c ∈ state, c ≠ 0 ∧ isCrlf c = false
  sep_ok : ∀ c ∈ sep, isCrlf c = true

def ListingLine.render (l : ListingLine) : List BYTE := l.id ++ 9 :: l.state ++ l.sep

/-- The state begins with `device`. -/
def ListingLine.attached (l : ListingLine) : Bool := (ascii "device").isPrefixOf l.state

/-- What `adb devices` prints: the rest of the banner's line, the end of that line, and the lines. -/
structure Listing where
  bannerRest : List BYTE
  eol : List BYTE
  lines : List ListingLine
  bannerRest_ok : ∀ c ∈ bannerRest, c ≠ 0 ∧ isCrlf c = false
  eol_ok : ∀ c ∈ eol, isCrlf c = true
  eol_ne : lines ≠ [] → eol ≠ []
  sep_ne : ∀ l ∈ lines.dropLast, l.sep ≠ []

def renderLines (lines : List ListingLine) : List BYTE := lines.flatMap ListingLine.render

def Listing.render (t : Listing) : List BYTE := banner ++ t.bannerRest ++ t.eol ++ renderLines t.lines

/-- The ids that the result is to list. -/
def Listing.devIds (t : Listing) : List (List BYTE) :=
  (t.lines.filter ListingLine.attached).map fun l => l.id.take (maxDevIdLen - 1)

/-- A text that starts where a line can start. -/
def LineStart (s : List BYTE) : Prop := s.dropWhile isCrlf = s

theorem lineStart_render (lines : List ListingLine) : LineStart (renderLines lines) := by
  cases lines with
  | nil => rfl
  | cons l ls =>
    unfold LineStart renderLines
    rw [List.flatMap_cons, ListingLine.render]
    cases hid : l.id with
    | nil => rfl
    | cons c id =>
      have hc := (l.id_ok c (by rw [hid]; exact List.mem_cons_self)).2.2
      simp only [List.cons_append]
      rw [List.dropWhile_cons_of_neg (by rw [hc]; exact Bool.false_ne_true)]

/-- Behind the rest of a line the next one starts. -/
theorem skipCRLFs_line {u sep s : List BYTE} (hu : ∀ c ∈ u, isCrlf c = false) (hsep : ∀ c ∈ sep, isCrlf c = true)
    (hs : LineStart s) (hne : sep = [] → s = []) : (skipCRLFs (u ++ (sep ++ s)) true).1 = s := by
  have hu' : ∀ c ∈ u, (!isCrlf c) = true := fun c hc => by rw [hu c hc]; rfl
  unfold skipCRLFs
  simp only [if_true]
  rw [List.dropWhile_append_of_pos hu']
  cases sep with
  | nil => rw [hne rfl]; rfl
  | cons c sep =>
    have hc := hsep c List.mem_cons_self
    rw [List.cons_append, List.dropWhile_cons_of_neg (by rw [hc]; exact Bool.false_ne_true), ← List.cons_append,
      List.dropWhile_append_of_pos hsep]
    exact hs

/-- A state begins with `device` when the text from it on does. -/
theorem attached_iff (l : ListingLine) {s : List BYTE} (hne : l.sep = [] → s = []) :
    ascii "device" <+: l.state ++ (l.sep ++ s) ↔ l.attached = true := by
  unfold ListingLine.attached
  rw [List.isPrefixOf_iff_prefix]
  refine ⟨fun h => ?_, fun h => h.trans (List.prefix_append _ _)⟩
  rcases List.prefix_or_prefix_of_prefix h (List.prefix_append l.state _) with hp | ⟨v, hv⟩
  · exact hp
  cases v with
  | nil =>
    rw [List.append_nil] at hv
    rw [hv]
  | cons c v =>
    -- the letter behind the state would be one of the separator
    have hc : isCrlf c = false :=
      forall_of_all (show (ascii "device").all (fun c => decide (isCrlf c = false)) = true by decide) c
        (hv ▸ List.mem_append_right _ List.mem_cons_self)
    obtain ⟨w, hw⟩ := h
    rw [← hv, List.append_assoc, List.append_cancel_left_eq] at hw
    cases hsep : l.sep with
    | nil =>
      rw [hsep, hne hsep] at hw
      cases hw
    | cons d sep =>
      rw [hsep] at hw
      have hd := l.sep_ok d (by rw [hsep]; exact List.mem_cons_self)
      rw [← (List.cons.inj hw).1, hc] at hd
      cases hd

/-- **A line is read to its end**, and counts when its state begins with `device`. -/
theorem scanState_line (l : ListingLine) {s : List BYTE} (hs : LineStart s) (hne : l.sep = [] → s = []) :
    scanState (l.render ++ s) = some (s, l.attached) ∧
      (parseUnquotedString (l.render ++ s) 9 maxDevIdLen).1 = l.id.take (maxDevIdLen - 1) ++ [0] := by
  have hid : (9 : BYTE) ∉ l.id := fun h => (l.id_ok 9 h).1 rfl
  have hrender : l.render ++ s = l.id ++ 9 :: (l.state ++ (l.sep ++ s)) := by
    simp [ListingLine.render]
  have hparse := parseUnquotedString_of_free hid (l.state ++ (l.sep ++ s)) maxDevIdLen
  have htab : matchStringBeginning (9 :: (l.state ++ (l.sep ++ s))) [9] = some (l.state ++ (l.sep ++ s)) :=
    matchStringBeginning_some.2 rfl
  rw [hrender]
  refine ⟨?_, by rw [hparse]⟩
  rw [scanState, hparse]
  dsimp only
  rw [htab]
  dsimp only
  cases hdev : l.attached with
  | true =>
    obtain ⟨u, hu⟩ := List.isPrefixOf_iff_prefix.1 hdev
    have hskip : (skipCRLFs (u ++ (l.sep ++ s)) true).1 = s :=
      skipCRLFs_line (fun c hc => (l.state_ok c (hu ▸ List.mem_append_right _ hc)).2) l.sep_ok hs hne
    rw [matchStringBeginning_some.2 (show l.state ++ (l.sep ++ s) = ascii "device" ++ (u ++ (l.sep ++ s)) by
      rw [← hu, List.append_assoc])]
    dsimp only
    rw [hskip]
  | false =>
    have hno : ¬ ascii "device" <+: l.state ++ (l.sep ++ s) := fun h => by
      rw [attached_iff l hne, hdev] at h
      cases h
    rw [matchStringBeginning_none.2 hno]
    dsimp only
    rw [skipCRLFs_line (fun c hc => (l.state_ok c hc).2) l.sep_ok hs hne]

/-- **The lines that the loop finds are the lines that were printed.** -/
theorem scanLines_render : ∀ {lines : List ListingLine}, (∀ l ∈ lines.dropLast, l.sep ≠ []) →
    scanLines (renderLines lines) = lines.map fun l => (l.id.take (maxDevIdLen - 1) ++ [0], l.attached)
  | [], _ => by
    apply scanLines_of_none
    rfl
  | l :: ls, h => by
    have hne : l.sep = [] → renderLines ls = [] := by
      intro hsep
      cases ls with
      | nil => rfl
      | cons l' ls => exact absurd hsep (h l List.mem_cons_self)
    obtain ⟨hscan, hid⟩ := scanState_line l (lineStart_render ls) hne
    have hls : ∀ l ∈ ls.dropLast, l.sep ≠ [] := by
      intro l' hl'
      cases ls with
      | nil => cases hl'
      | cons m ls => exact h l' (List.mem_cons_of_mem _ hl')
    rw [renderLines, List.flatMap_cons, ← renderLines, scanLines_of_some hscan, hid, scanLines_render hls,
      List.map_cons]

theorem counted_render (lines : List ListingLine) :
    counted (lines.map fun l => (l.id.take (maxDevIdLen - 1) ++ [0], l.attached)) =
      (lines.filter ListingLine.attached).map fun l => l.id.take (maxDevIdLen - 1) ++ [0] := by
  unfold counted
  rw [List.filter_map, List.map_map]
  rfl

theorem linesOf_render (t : Listing) :
    linesOf t.render = t.lines.map fun l => (l.id.take (maxDevIdLen - 1) ++ [0], l.attached) := by
  have hm : matchStringBeginning t.render banner = some (t.bannerRest ++ (t.eol ++ renderLines t.lines)) :=
    matchStringBeginning_some.2 (by simp [Listing.render])
  have hne : t.eol = [] → renderLines t.lines = [] := by
    intro heol
    cases hlines : t.lines with
    | nil => rfl
    | cons l ls => exact absurd heol (t.eol_ne (by rw [hlines]; exact List.cons_ne_nil _ _))
  rw [linesOf, hm]
  dsimp only
  rw [skipCRLFs_line (fun c hc => (t.bannerRest_ok c hc).2) t.eol_ok (lineStart_render _) hne,
    scanLines_render t.sep_ne]

/-- **A well-formed listing is parsed**: the result is a success and lists the ids of the lines whose state begins with
`device`, cut to their places, in order. -/
theorem processResult_listing {cmd : AdbCmd} (hb : cmd.biResult.room ≠ 0 → cmd.biResult.head = true) (t : Listing)
    (hs : cmd.szOutput = some t.render) (hcnt : t.lines.length ≤ maxAdbDevCnt) (fresh : Nat → BYTE) :
    ∃ cmd', processResult fresh cmd = .ok cmd' ∧ cmd'.dwResult = some (.ofNat errorSuccess) ∧
      cmd'.dwDevNum = some (.ofNat t.devIds.length) ∧ ∀ i id, t.devIds[i]? = some id → cmd'.szDevId i = some id := by
  obtain ⟨b, hf, hp⟩ := processResult_eq hb hs fresh
  have hlines := linesOf_render t
  unfold linesOf at hlines
  cases hm : matchStringBeginning t.render banner with
  | none =>
    refine absurd ?_ (matchStringBeginning_none.1 hm)
    exact ⟨_, by rw [Listing.render, List.append_assoc, List.append_assoc]⟩
  | some q =>
    rw [hm] at hp hlines
    dsimp only at hp hlines
    have hreached := reached_of_few (scanLines (skipCRLFs q true).1) (i := 0) (by
      rw [hlines, List.length_map, Nat.zero_add]
      exact hcnt)
    have hfit : b.tail + maxDevIdLen * (reached 0 (scanLines (skipCRLFs q true).1)).length ≤ b.room := by
      rw [hreached, hlines, List.length_map, hf.tail]
      exact (Nat.add_le_add_left (Nat.mul_le_mul_left _ hcnt) _).trans hf.room
    obtain ⟨b₁, i, hscan⟩ : ∃ b₁ i, scanDevices 0 b 0 (skipCRLFs q true).1 = .ok (b₁, i) :=
      scanDevices_ok hf.head hfit
    obtain ⟨hd, hr, hi, -, -⟩ := finish_of_scan hf hscan
    obtain ⟨-, hids⟩ := scanDevices_ids (by rw [Nat.zero_add]; exact hf.room) hscan
    rw [hreached, hlines, counted_render] at hi hids
    rw [hscan] at hp
    have hlen : i = t.devIds.length := by rw [hi, Listing.devIds, List.length_map, List.length_map]
    refine ⟨_, hp, ?_, ?_, fun k id hk => ?_⟩
    · show dwordField (List.drop (finish b₁ i).data _) 4 = _
      rw [hd, List.drop_zero, (finish_words hr i).2.1]
    · show dwordField (List.drop (finish b₁ i).data _) 8 = _
      rw [hd, List.drop_zero, (finish_words hr i).2.2, hlen]
    · rw [Listing.devIds, List.getElem?_map] at hk
      obtain ⟨l, hl, rfl⟩ := Option.map_eq_some_iff.1 hk
      have h0 : 0 ∉ l.id.take (maxDevIdLen - 1) := fun h => (l.id_ok 0 (List.mem_of_mem_take h)).2.1 rfl
      show cString ((List.drop (finish b₁ i).data (finish b₁ i).mem).drop _) = _
      rw [hd, List.drop_zero]
      apply Holds.cString (b := finish b₁ i) _ h0
      intro j hj
      have hk' := hids k (l.id.take (maxDevIdLen - 1) ++ [0]) (by rw [List.getElem?_map, hl]; rfl) j hj
      rw [Nat.zero_add, Nat.zero_add] at hk'
      rw [finish_ids hr i (by omega), hk']

/-- A phone that does not answer, and one that does. -/
def twoPhones : Listing where
  bannerRest := []
  eol := [13, 10]
  lines := [
    { id := ascii "AB12", state := ascii "offline", sep := [13, 13, 10], id_ok := forall_of_all (by decide),
      state_ok := forall_of_all (by decide), sep_ok := forall_of_all (by decide) },
    { id := ascii "CD34", state := ascii "device usb:1-1", sep := [], id_ok := forall_of_all (by decide),
      state_ok := forall_of_all (by decide), sep_ok := forall_of_all (by decide) }]
  bannerRest_ok := forall_of_all (by decide)
  eol_ok := forall_of_all (by decide)
  eol_ne := fun _ => List.cons_ne_nil _ _
  sep_ne := by decide

theorem processResult_twoPhones : ∃ cmd', processResult (fun _ => 0) (AdbCmd.ofOutput twoPhones.render) = .ok cmd' ∧
    cmd'.dwResult = some 0 ∧ cmd'.dwDevNum = some 1 ∧ cmd'.szDevId 0 = some (ascii "CD34") := by
  have hb : (AdbCmd.ofOutput twoPhones.render).biResult.room ≠ 0 →
      (AdbCmd.ofOutput twoPhones.render).biResult.head = true := fun h => absurd rfl h
  obtain ⟨cmd', hp, hres, hnum, hids⟩ := processResult_listing hb twoPhones (by decide) (by decide) (fun _ => 0)
  exact ⟨cmd', hp, hres, hnum, hids 0 (ascii "CD34") (by decide)⟩

end AdbCmdEnumDev

end DevMgr
