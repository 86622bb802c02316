import DevMgr.GetApkList
/-!
# AppCursor — where the pointer over the application list goes

The loop of `AdbCmdGetApkList::ProcessResult` without its stores (`scanApps`), the pointers that it reads from, and
those at which the records that it counts begin.  A field without its tab leaves the pointer where it was, and the
`p++` after it is made all the same: over the next line's fields, or over the terminating zero.
-/
namespace DevMgr

open MiscUtils BufferItem

namespace AdbCmdGetApkList

def crCrLf : List BYTE := [13, 13, 10]

/-- The loop's readings, with `n` passes to go. -/
def scanApps : Nat → List BYTE → Except CmdFault (List AppFields)
  | 0, _ => .ok []
  | n + 1, p => match parseApp p with
    | .error e => .error e
    | .ok none => .ok []
    | .ok (some a) => match scanApps n a.p with
      | .error e => .error e
      | .ok as => .ok (a :: as)

/-- Where the record that a pass finds begins. -/
def recordAt (p : List BYTE) : Option (List BYTE) :=
  match cString p with
  | none => none
  | some s => (matchStringAnywhere s crCrLf).map (advance p s)

/-- The pointers that a pass reads from. -/
def passReads (p : List BYTE) : List (List BYTE) :=
  p :: match recordAt p with
    | none => []
    | some p => p :: match parseField p maxAppNameLen with
      | .error _ => []
      | .ok (_, p) => p :: match parseField p maxAppLongnameLen with
        | .error _ => []
        | .ok (_, p) => p :: match parseField p maxAppVersionLen with
          | .error _ => []
          | .ok (_, p) => [p]

def readsFrom : Nat → List BYTE → List (List BYTE)
  | 0, _ => []
  | n + 1, p => passReads p ++ match parseApp p with
    | .ok (some a) => readsFrom n a.p
    | _ => []

/-- Where the records begin that the loop counts. -/
def recordsFrom : Nat → List BYTE → List (List BYTE)
  | 0, _ => []
  | n + 1, p => match parseApp p with
    | .ok (some a) => (recordAt p).toList ++ recordsFrom n a.p
    | _ => []

/-- The passes that the count in front of the list asks for. -/
def announced (s : List BYTE) : Nat := min (parseDWord s false).2.1.toNat maxAppListNum

/-- Where the loop begins in a text that stands in front of `m`'s first zero. -/
def listStart (m s : List BYTE) : List BYTE := advance m s (parseDWord s false).2.2

/-- The pointer is in the text `s` or at the zero behind it; `t` is what stands behind that. -/
def AtText (s t p : List BYTE) : Prop := ∃ v, v <:+ s ∧ p = v ++ 0 :: t

/-- What stands in front of the next line end. -/
def firstLine (s : List BYTE) : List BYTE :=
  match strstr crCrLf s with
  | none => s
  | some n => s.take n

/-- The pointer is at a line of the text, and the line has its three tabs. -/
def FullLine (s t p : List BYTE) : Prop :=
  ∃ u q, s = u ++ crCrLf ++ q ∧ p = q ++ 0 :: t ∧ 3 ≤ (firstLine q).count 9

/-- The first `n` lines behind line ends. -/
def listLines : Nat → List BYTE → List (List BYTE)
  | 0, _ => []
  | n + 1, s => match matchStringAnywhere s crCrLf with
    | none => []
    | some q => firstLine q :: listLines n q

/-- A call that reads no further than the zero behind the text, and counts only lines that have all four fields. -/
structure KeepsToText (access : Nat → Bool) (iconDir : List BYTE) (fresh : Nat → BYTE) (cmd : AdbCmd)
    (s t : List BYTE) : Prop where
  ends : ∃ cmd' pulled, processResult access iconDir fresh cmd = .ok (cmd', pulled) ∧
    cmd'.dwCount = some (.ofNat (recordsFrom (announced s) (listStart (s ++ 0 :: t) s)).length)
  reads : ∀ p ∈ readsFrom (announced s) (listStart (s ++ 0 :: t) s), AtText s t p
  records : ∀ p ∈ recordsFrom (announced s) (listStart (s ++ 0 :: t) s), FullLine s t p

/-! ## The loop and its readings -/

section
variable {access : Nat → Bool} {iconDir : List BYTE}

/-- The stores of a pass, the count last. -/
def AppFields.stores (a : AppFields) (i : Nat) : List (Nat × List BYTE) :=
  let pAppInfo := sizeofAppListHdr + sizeofAppInfo * i
  [(pAppInfo, a.szName), (pAppInfo + offsetLongName, a.szLongName), (pAppInfo + offsetVersion, a.szVersion),
    (pAppInfo + offsetDwVersion, dwordBytes a.dwVersion), (pAppInfo + offsetIconName, a.szIconName)]

theorem storeApp_writes (b : BufferItem) (i : Nat) (a : AppFields) :
    storeApp 0 b i a = (b.writes (a.stores i)).write 8 (dwordBytes (.ofNat (i + 1))) := by
  unfold storeApp AppFields.stores
  rw [Nat.zero_add, Nat.zero_add]
  simp only [writes, List.foldl_cons, List.foldl_nil]

theorem storeApp_keeps (b : BufferItem) (i : Nat) (a : AppFields) : (storeApp 0 b i a).head = b.head ∧
    (storeApp 0 b i a).data = b.data ∧ (storeApp 0 b i a).tail = b.tail ∧
    (storeApp 0 b i a).dataLen = b.dataLen ∧ b.room ≤ (storeApp 0 b i a).room := by
  rw [storeApp_writes]
  obtain ⟨hh, hd, ht, hl⟩ := writes_keeps b (a.stores i)
  exact ⟨hh, hd, ht, hl, (length_writes_ge b _).trans (length_write_ge ..)⟩

theorem storeApp_count {b : BufferItem} (hr : sizeofAppListHdr ≤ b.room) (i : Nat) (a : AppFields) :
    (storeApp 0 b i a).Holds 8 (dwordBytes (.ofNat (i + 1))) := by
  rw [storeApp_writes]
  apply holds_write
  exact (Nat.le_trans (by decide) hr).trans (length_writes_ge b (a.stores i))

/-- What the loop leaves when it comes to its end: the count of the records in the header, and their size. -/
structure Counted (b b' : BufferItem) (n : Nat) : Prop where
  count : b'.Holds 8 (dwordBytes (.ofNat n))
  data : b'.data = b.data
  tail : b'.tail = sizeofAppListHdr + sizeofAppInfo * n
  dataLen : b'.dataLen = sizeofAppListHdr + sizeofAppInfo * n
  room : b.room ≤ b'.room

/-- **The loop ends where its readings do**: with as many records as there are, each with room for it. -/
theorem readApps_scan : ∀ (n : Nat) {i : Nat} {b : BufferItem} (p : List BYTE), b.head = true →
    b.tail = sizeofAppListHdr + sizeofAppInfo * i → b.dataLen = sizeofAppListHdr + sizeofAppInfo * i →
    sizeofAppListHdr + sizeofAppInfo * (i + n) ≤ b.room → b.Holds 8 (dwordBytes (.ofNat i)) →
    match scanApps n p with
    | .error e => readApps access iconDir 0 n i b p = .error e
    | .ok as => ∃ b' pulled, readApps access iconDir 0 n i b p = .ok (b', pulled) ∧ Counted b b' (i + as.length)
  | 0, i, b, p, _, ht, hl, _, hcnt => ⟨b, [], rfl, hcnt, rfl, ht, hl, Nat.le_refl _⟩
  | n + 1, i, b, p, hh, ht, hl, hroom, hcnt => by
    rw [scanApps, readApps]
    cases hp : parseApp p with
    | error e => rfl
    | ok o =>
      cases o with
      | none => exact ⟨b, [], rfl, hcnt, rfl, ht, hl, Nat.le_refl _⟩
      | some a =>
        dsimp only
        obtain ⟨hhead, hdata, htail, hdataLen, hge⟩ := storeApp_keeps b i a
        have hcnt' := storeApp_count (Nat.le_trans (Nat.le_add_right _ _) hroom) i a
        obtain ⟨b₁, hb₁⟩ : ∃ b₁, storeApp 0 b i a = b₁ := ⟨_, rfl⟩
        rw [hb₁] at hhead hdata htail hdataLen hge hcnt' ⊢
        have hsucc : sizeofAppListHdr + sizeofAppInfo * (i + 1) =
            sizeofAppListHdr + sizeofAppInfo * i + sizeofAppInfo := by rw [Nat.mul_succ, Nat.add_assoc]
        have hle : sizeofAppListHdr + sizeofAppInfo * (i + 1) ≤ b₁.room := by
          have hmul := Nat.mul_le_mul_left sizeofAppInfo (show i + 1 ≤ i + (n + 1) by omega)
          omega
        have hput : b₁.put sizeofAppInfo = _ := put_of_room (hhead.trans hh)
          (show b₁.tail + sizeofAppInfo ≤ b₁.room by rw [htail, ht, ← hsucc]; exact hle)
        rw [hput]
        dsimp only
        have ih := readApps_scan n (i := i + 1)
          (b := { b₁ with tail := b₁.tail + sizeofAppInfo, dataLen := b₁.dataLen + sizeofAppInfo }) a.p
          (hhead.trans hh) (by rw [htail, ht, hsucc]) (by rw [hdataLen, hl, hsucc])
          (Nat.le_trans (by rw [Nat.add_right_comm, Nat.add_assoc]; exact hroom) hge) hcnt'
        cases hs : scanApps n a.p with
        | error e =>
          rw [hs] at ih
          dsimp only at ih ⊢
          rw [ih]
        | ok as =>
          rw [hs] at ih
          dsimp only at ih ⊢
          obtain ⟨b', pulled, hloop, hc⟩ := ih
          refine ⟨b', _, by rw [hloop], ?_⟩
          rw [List.length_cons, Nat.add_comm as.length, ← Nat.add_assoc]
          exact ⟨hc.count, hc.data.trans hdata, hc.tail, hc.dataLen, hge.trans hc.room⟩

/-- A pass with a record has found where it begins. -/
theorem recordAt_of_parseApp {p : List BYTE} {a : AppFields} (h : parseApp p = .ok (some a)) :
    ∃ q, recordAt p = some q := by
  unfold parseApp at h
  unfold recordAt
  cases hc : cString p with
  | none =>
    rw [hc] at h
    cases h
  | some s =>
    rw [hc] at h
    dsimp only at h ⊢
    cases hm : matchStringAnywhere s crCrLf with
    | none =>
      rw [show ([13, 13, 10] : List BYTE) = crCrLf from rfl, hm] at h
      cases h
    | some q => exact ⟨_, rfl⟩

theorem length_recordsFrom : ∀ {n : Nat} {p : List BYTE} {as : List AppFields}, scanApps n p = .ok as →
    (recordsFrom n p).length = as.length
  | 0, _, as, h => by
    cases h
    rfl
  | n + 1, p, as, h => by
    rw [scanApps] at h
    rw [recordsFrom]
    cases hp : parseApp p with
    | error e =>
      rw [hp] at h
      cases h
    | ok o =>
      rw [hp] at h
      cases o with
      | none =>
        cases h
        rfl
      | some a =>
        dsimp only at h ⊢
        cases hs : scanApps n a.p with
        | error e =>
          rw [hs] at h
          cases h
        | ok as' =>
          rw [hs] at h
          cases h
          obtain ⟨q, hq⟩ := recordAt_of_parseApp hp
          rw [hq, Option.toList_some, List.length_append, List.length_singleton, length_recordsFrom hs,
            List.length_cons, Nat.add_comm]

theorem recordsFrom_le : ∀ (n : Nat) (p : List BYTE), (recordsFrom n p).length ≤ n
  | 0, _ => Nat.le_refl 0
  | n + 1, p => by
    have hone : (recordAt p).toList.length ≤ 1 := by
      cases recordAt p with
      | none => exact Nat.zero_le 1
      | some q => exact Nat.le_refl 1
    rw [recordsFrom]
    split
    · rename_i a _
      have ih := recordsFrom_le n a.p
      rw [List.length_append]
      omega
    · exact Nat.zero_le _

/-- **The call comes to its end exactly when the loop's readings do**, and counts the records that they find. -/
theorem processResult_scan {cmd : AdbCmd} (hb : cmd.biResult.room ≠ 0 → cmd.biResult.head = true)
    (fresh : Nat → BYTE) {s t : List BYTE} (hm : cmd.biOutput.mem.drop cmd.biOutput.data = s ++ 0 :: t) (h0 : 0 ∉ s) :
    match scanApps (announced s) (listStart (s ++ 0 :: t) s) with
    | .error e => processResult access iconDir fresh cmd = .error e
    | .ok as => ∃ cmd' pulled, processResult access iconDir fresh cmd = .ok (cmd', pulled) ∧
        cmd'.dwCount = some (.ofNat as.length) ∧ cmd'.biResult.data = 0 ∧
        cmd'.biResult.dataSize = sizeofAppListHdr + sizeofAppInfo * as.length ∧
        cmd'.biResult.dataSize ≤ cmd'.biResult.room := by
  obtain ⟨b, hf, hproc⟩ := processResult_loop access iconDir hb fresh hm h0
  have hn : announced s ≤ maxAppListNum := Nat.min_le_right ..
  have hroom : sizeofAppListHdr + sizeofAppInfo * (0 + announced s) ≤ b.room := by
    rw [Nat.zero_add]
    exact (Nat.add_le_add_left (Nat.mul_le_mul_left _ hn) _).trans hf.room
  have hloop := @readApps_scan access iconDir (announced s) 0 _
    (listStart (s ++ 0 :: t) s) hf.head hf.tail hf.dataLen hroom hf.count
  cases hs : scanApps (announced s) (listStart (s ++ 0 :: t) s) with
  | error e =>
    rw [hs] at hloop
    dsimp only at hloop ⊢
    exact hproc.trans (congrArg (Except.map _) hloop)
  | ok as =>
    rw [hs] at hloop
    dsimp only at hloop ⊢
    obtain ⟨b', pulled, hread, hc⟩ := hloop
    rw [Nat.zero_add] at hc
    have hd : b'.data = 0 := hc.data.trans hf.data
    have hle : sizeofAppListHdr + sizeofAppInfo * as.length ≤ b.room := by
      have hlen := length_recordsFrom hs
      have hmul := Nat.mul_le_mul_left sizeofAppInfo (show as.length ≤ 0 + announced s from by
        rw [← hlen, Nat.zero_add]
        exact recordsFrom_le _ _)
      omega
    refine ⟨_, pulled, hproc.trans (congrArg (Except.map _) hread), ?_, hd, ?_, ?_⟩
    · have hkeep := @Holds.write _ _ _ _ (dwordBytes (.ofNat b'.dataSize)) hc.count (Nat.zero_le b'.mem.length)
        (.inr (show 0 + 4 ≤ 8 by decide))
      show dwordField (List.drop b'.data _) 8 = _
      rw [hd, List.drop_zero, dwordField_of_holds hkeep]
    · exact hc.dataLen
    · show b'.dataLen ≤ _
      rw [hc.dataLen]
      exact hle.trans (hc.room.trans (length_write_ge ..))

end

/-! ## The pointers of a pass -/

section
variable {s t q : List BYTE}

/-- What is read of a field that has its tab. -/
theorem parseField_tab {f : List BYTE} (h9 : 9 ∉ f) (h0 : 0 ∉ f ++ 9 :: s) (t : List BYTE) (cbOut : Nat) :
    parseField (f ++ 9 :: s ++ 0 :: t) cbOut = .ok (f.take (cbOut - 1) ++ [0], s ++ 0 :: t) := by
  rw [parseField, cString_append h0]
  dsimp only
  rw [parseUnquotedString_of_free h9, Option.getD_some, advance_append]
  rfl

theorem firstLine_prefix (q : List BYTE) : ∃ rest, q = firstLine q ++ rest := by
  unfold firstLine
  split
  · exact ⟨[], (List.append_nil q).symm⟩
  · exact ⟨_, (List.take_append_drop _ q).symm⟩

/-- A line with three tabs, cut at them. -/
theorem cut_tabs {l : List BYTE} (h : 3 ≤ l.count 9) : ∃ f₁ f₂ f₃ r, l = f₁ ++ 9 :: (f₂ ++ 9 :: (f₃ ++ 9 :: r)) ∧
    9 ∉ f₁ ∧ 9 ∉ f₂ ∧ 9 ∉ f₃ := by
  have hcut : ∀ {l : List BYTE} {n : Nat}, n + 1 ≤ l.count 9 → ∃ f r, l = f ++ 9 :: r ∧ 9 ∉ f ∧ n ≤ r.count 9 := by
    intro l n hl
    obtain ⟨f, r, rfl, hf⟩ := List.eq_append_cons_of_mem (List.count_pos_iff.1 (Nat.lt_of_lt_of_le (Nat.succ_pos n) hl))
    refine ⟨f, r, rfl, hf, ?_⟩
    rw [List.count_append, List.count_eq_zero.2 hf, List.count_cons_self] at hl
    omega
  obtain ⟨f₁, r₁, rfl, h₁, hr₁⟩ := hcut h
  obtain ⟨f₂, r₂, rfl, h₂, hr₂⟩ := hcut hr₁
  obtain ⟨f₃, r, rfl, h₃, -⟩ := hcut hr₂
  exact ⟨f₁, f₂, f₃, r, rfl, h₁, h₂, h₃⟩

theorem suffix_behind {f r : List BYTE} {c : BYTE} (h : f ++ c :: r <:+ s) : r <:+ s :=
  List.IsSuffix.trans ⟨f ++ [c], by rw [List.append_assoc, List.singleton_append]⟩ h

/-- A number behind the third tab of a line ends in that line. -/
theorem number_in_line {w r rest u v : List BYTE} (hline : firstLine (w ++ (r ++ rest)) = w ++ r)
    (hsplit : r ++ rest = u ++ v) (hu : ∀ c ∈ u, c = 32 ∨ isDigit c = true) :
    matchStringAnywhere v crCrLf = matchStringAnywhere (w ++ (r ++ rest)) crCrLf := by
  rw [hsplit, ← List.append_assoc]
  apply matchStringAnywhere_drop
  intro n hn
  rw [hsplit, ← List.append_assoc, firstLine, hn] at hline
  dsimp only at hline
  obtain ⟨⟨hle, x, hx⟩, -⟩ := strstr_some.1 hn
  have hlen : n = (w ++ r).length := by
    rw [← hline, List.length_take, Nat.min_eq_left hle]
  by_contra hlt
  rw [List.length_append, List.length_append] at *
  -- the carriage return at the end of the line would be one of the number's bytes
  obtain ⟨a, ha, hrest⟩ | ⟨a, ha, -⟩ := List.append_eq_append_iff.1 hsplit
  · have hdrop : (w ++ u ++ v).drop n = rest := by
      rw [List.append_assoc, ← hsplit, ← List.append_assoc, hlen, ← List.length_append, List.drop_left]
    rw [hdrop, hrest] at hx
    cases a with
    | nil =>
      rw [List.append_nil] at ha
      rw [ha] at hlt
      omega
    | cons c a =>
      obtain rfl : (13 : BYTE) = c := (List.cons.inj hx).1
      rcases hu 13 (by rw [ha]; simp) with h | h
      · exact absurd h (by decide)
      · exact absurd h (by decide)
  · have := congrArg List.length ha
    rw [List.length_append] at this
    omega

variable (h0 : 0 ∉ s)
include h0

theorem recordAt_eq (t : List BYTE) : recordAt (s ++ 0 :: t) = (matchStringAnywhere s crCrLf).map (· ++ 0 :: t) := by
  rw [recordAt, cString_append h0]
  dsimp only
  cases hm : matchStringAnywhere s crCrLf with
  | none => rfl
  | some q =>
    obtain ⟨u, rfl⟩ := matchStringAnywhere_some hm
    rw [Option.map_some, Option.map_some, advance_append]

/-- **A pass over a line with three tabs stays in the text**, and what it leaves to be read has the same lines. -/
theorem pass_full (hm : matchStringAnywhere s crCrLf = some q) (h3 : 3 ≤ (firstLine q).count 9) (t : List BYTE) :
    ∃ a v, parseApp (s ++ 0 :: t) = .ok (some a) ∧ a.p = v ++ 0 :: t ∧ v <:+ s ∧
      matchStringAnywhere v crCrLf = matchStringAnywhere q crCrLf ∧ ∀ p ∈ passReads (s ++ 0 :: t), AtText s t p := by
  obtain ⟨u₀, hs⟩ := matchStringAnywhere_some hm
  obtain ⟨f₁, f₂, f₃, r, hl, h₁, h₂, h₃⟩ := cut_tabs h3
  obtain ⟨rest, hrest⟩ := firstLine_prefix q
  rw [hl] at hrest
  have hq : q = f₁ ++ 9 :: (f₂ ++ 9 :: (f₃ ++ 9 :: (r ++ rest))) := by
    rw [hrest]
    simp only [List.append_assoc, List.cons_append]
  obtain ⟨u, hu, hdig⟩ := parseDWord_suffix (r ++ rest) false
  obtain ⟨v, hv⟩ : ∃ v, (parseDWord (r ++ rest) false).2.2 = v := ⟨_, rfl⟩
  rw [hv] at hu
  have hlines : matchStringAnywhere v crCrLf = matchStringAnywhere q crCrLf := by
    have hw : q = f₁ ++ 9 :: (f₂ ++ 9 :: (f₃ ++ [9])) ++ (r ++ rest) := by
      rw [hq]
      simp only [List.append_assoc, List.cons_append, List.nil_append]
    rw [hw] at hl ⊢
    apply number_in_line _ hu hdig
    rw [hl]
    simp only [List.append_assoc, List.cons_append, List.nil_append]
  -- where the pass reads: each of these is an end of the text
  have hsuf₁ : q <:+ s := ⟨_, hs.symm⟩
  have hsuf₂ := suffix_behind (hq ▸ hsuf₁)
  have hsuf₃ := suffix_behind hsuf₂
  have hsuf₄ := suffix_behind hsuf₃
  have hz : ∀ {w : List BYTE}, w <:+ s → 0 ∉ w := fun hw h => h0 (hw.mem h)
  have hz₁ := hz hsuf₁
  rw [hq] at hz₁
  have hp₁ := parseField_tab h₁ hz₁ t maxAppNameLen
  have hp₂ := parseField_tab h₂ (hz hsuf₂) t maxAppLongnameLen
  have hp₃ := parseField_tab h₃ (hz hsuf₃) t maxAppVersionLen
  have hrec := recordAt_eq h0 t
  rw [hm, Option.map_some] at hrec
  have hadv : advance (r ++ rest ++ 0 :: t) (r ++ rest) v = v ++ 0 :: t := by rw [hu, advance_append]
  have hreads : passReads (s ++ 0 :: t) = [s ++ 0 :: t, q ++ 0 :: t, f₂ ++ 9 :: (f₃ ++ 9 :: (r ++ rest)) ++ 0 :: t,
      f₃ ++ 9 :: (r ++ rest) ++ 0 :: t, r ++ rest ++ 0 :: t] := by
    rw [passReads, hrec]
    dsimp only
    conv_lhs => rw [hq]
    rw [hp₁]
    dsimp only
    rw [hp₂]
    dsimp only
    rw [hp₃, ← hq]
  refine ⟨⟨f₁.take (maxAppNameLen - 1) ++ [0], f₂.take (maxAppLongnameLen - 1) ++ [0],
    f₃.take (maxAppVersionLen - 1) ++ [0], (parseDWord (r ++ rest) false).2.1, v ++ 0 :: t⟩, v, ?_, rfl,
    List.IsSuffix.trans ⟨u, hu.symm⟩ hsuf₄, hlines, ?_⟩
  · rw [parseApp, cString_append h0]
    dsimp only
    rw [show ([13, 13, 10] : List BYTE) = crCrLf from rfl, hm]
    dsimp only
    rw [hs, advance_append, hq, hp₁]
    dsimp only
    rw [hp₂]
    dsimp only
    rw [hp₃]
    dsimp only
    rw [cString_append (hz hsuf₄)]
    dsimp only
    rw [hv, hadv]
  · intro p hp
    rw [hreads] at hp
    simp only [List.mem_cons, List.not_mem_nil, or_false] at hp
    rcases hp with rfl | rfl | rfl | rfl | rfl
    · exact ⟨s, List.suffix_rfl, rfl⟩
    · exact ⟨q, hsuf₁, rfl⟩
    · exact ⟨_, hsuf₂, rfl⟩
    · exact ⟨_, hsuf₃, rfl⟩
    · exact ⟨_, hsuf₄, rfl⟩

/-- A pass that finds a line end has a record or a fault. -/
theorem parseApp_found (hm : matchStringAnywhere s crCrLf = some q) (t : List BYTE) :
    parseApp (s ++ 0 :: t) ≠ .ok none := by
  intro h
  rw [parseApp, cString_append h0] at h
  dsimp only at h
  rw [show ([13, 13, 10] : List BYTE) = crCrLf from rfl, hm] at h
  dsimp only at h
  repeat' split at h
  all_goals cases h

end

theorem listLines_congr {s s' : List BYTE} (h : matchStringAnywhere s crCrLf = matchStringAnywhere s' crCrLf)
    (n : Nat) : listLines n s = listLines n s' := by
  cases n with
  | zero => rfl
  | succ n => rw [listLines, h, listLines]

theorem AtText.mono {s s' t p : List BYTE} (h : AtText s' t p) (hs : s' <:+ s) : AtText s t p := by
  obtain ⟨v, hv, rfl⟩ := h
  exact ⟨v, hv.trans hs, rfl⟩

/-- A pointer is at one line at most. -/
theorem fullLine_iff {s t u q : List BYTE} (hs : s = u ++ crCrLf ++ q) :
    FullLine s t (q ++ 0 :: t) ↔ 3 ≤ (firstLine q).count 9 := by
  constructor
  · rintro ⟨-, q', -, hq, h3⟩
    rw [List.append_cancel_right hq]
    exact h3
  · exact fun h3 => ⟨u, q, hs, rfl, h3⟩

/-- **The loop stays in the text and counts full lines exactly when the lines it is asked for are full**: by induction
on the passes, from any place in the text `S`. -/
theorem loop_keeps_iff {S t : List BYTE} (h0 : 0 ∉ S) : ∀ (n : Nat) {s : List BYTE}, s <:+ S →
    (((∃ as, scanApps n (s ++ 0 :: t) = .ok as) ∧ (∀ p ∈ readsFrom n (s ++ 0 :: t), AtText S t p) ∧
      ∀ p ∈ recordsFrom n (s ++ 0 :: t), FullLine S t p) ↔ ∀ line ∈ listLines n s, 3 ≤ line.count 9)
  | 0, s, _ => by
    apply iff_of_true
    · exact ⟨⟨[], rfl⟩, fun p hp => absurd hp List.not_mem_nil, fun p hp => absurd hp List.not_mem_nil⟩
    · exact fun line hl => absurd hl List.not_mem_nil
  | n + 1, s, hs => by
    have hz : 0 ∉ s := fun h => h0 (hs.mem h)
    have hrec := recordAt_eq hz t
    rw [scanApps, readsFrom, recordsFrom, listLines]
    cases hm : matchStringAnywhere s crCrLf with
    | none =>
      rw [hm, Option.map_none] at hrec
      have hp : parseApp (s ++ 0 :: t) = .ok none := by
        rw [parseApp, cString_append hz]
        dsimp only
        rw [show ([13, 13, 10] : List BYTE) = crCrLf from rfl, hm]
      rw [hp, passReads, hrec]
      apply iff_of_true
      · refine ⟨⟨[], rfl⟩, fun p hp => ?_, fun p hp => absurd hp List.not_mem_nil⟩
        rw [List.append_nil, List.mem_singleton] at hp
        exact ⟨s, hs, hp⟩
      · exact fun line hl => absurd hl List.not_mem_nil
    | some q =>
      rw [hm, Option.map_some] at hrec
      obtain ⟨u, hu⟩ := matchStringAnywhere_some hm
      obtain ⟨w, hw⟩ := hs
      have hS : S = w ++ u ++ crCrLf ++ q := by
        rw [← hw, hu]
        simp only [List.append_assoc]
      dsimp only
      rw [List.forall_mem_cons]
      by_cases h3 : 3 ≤ (firstLine q).count 9
      · obtain ⟨a, v, hp, hav, hvs, hlines, hreads⟩ := pass_full hz hm h3 t
        have ih := loop_keeps_iff (t := t) h0 n (hvs.trans ⟨w, hw⟩)
        rw [listLines_congr hlines] at ih
        rw [hp, hrec]
        dsimp only
        rw [hav, ← ih]
        constructor
        · rintro ⟨⟨as, has⟩, hr, hf⟩
          refine ⟨h3, ?_, fun p hp => hr p (List.mem_append_right _ hp), fun p hp => hf p (List.mem_append_right _ hp)⟩
          cases hscan : scanApps n (v ++ 0 :: t) with
          | error e =>
            rw [hscan] at has
            cases has
          | ok as => exact ⟨as, rfl⟩
        · rintro ⟨-, ⟨as, has⟩, hr, hf⟩
          refine ⟨⟨a :: as, by rw [has]⟩, fun p hp => ?_, fun p hp => ?_⟩
          · rcases List.mem_append.1 hp with hp | hp
            · exact (hreads p hp).mono ⟨w, hw⟩
            · exact hr p hp
          · rcases List.mem_append.1 hp with hp | hp
            · rw [Option.toList_some, List.mem_singleton] at hp
              rw [hp]
              exact (fullLine_iff hS).2 h3
            · exact hf p hp
      · apply iff_of_false _ fun h => h3 h.1
        rintro ⟨⟨as, has⟩, -, hf⟩
        cases hp : parseApp (s ++ 0 :: t) with
        | error e =>
          rw [hp] at has
          cases has
        | ok o =>
          cases o with
          | none => exact parseApp_found hz hm t hp
          | some a =>
            rw [hp, hrec] at hf
            exact h3 ((fullLine_iff hS).1 (hf _ (List.mem_append_left _ (List.mem_singleton_self _))))

/-- The loop begins behind the count, in front of the same lines. -/
theorem listStart_eq (s t : List BYTE) : ∃ v, listStart (s ++ 0 :: t) s = v ++ 0 :: t ∧ v <:+ s ∧
    ∀ n, listLines n v = listLines n s := by
  obtain ⟨u, hu, hdig⟩ := parseDWord_suffix s false
  obtain ⟨v, hv⟩ : ∃ v, (parseDWord s false).2.2 = v := ⟨_, rfl⟩
  rw [hv] at hu
  refine ⟨v, ?_, ⟨u, hu.symm⟩, fun n => listLines_congr ?_ n⟩
  · rw [listStart, hv, hu, advance_append]
  · conv_rhs => rw [hu]
    apply matchStringAnywhere_drop
    intro n hn
    obtain ⟨⟨-, x, hx⟩, -⟩ := strstr_some.1 hn
    by_contra hlt
    -- a line end inside the number
    have hmem : (13 : BYTE) ∈ u := by
      apply List.mem_of_getElem? (i := n)
      have hget : (u ++ v)[n]? = some 13 := by
        rw [← Nat.add_zero n, ← List.getElem?_drop, ← hx]
        rfl
      rwa [List.getElem?_append_left (Nat.lt_of_not_le hlt)] at hget
    rcases hdig 13 hmem with h | h
    · exact absurd h (by decide)
    · exact absurd h (by decide)

/-- **The pointer stays in the text, and every record counted is a line with all four fields, exactly when each line
that the count asks for has its three tabs.** -/
theorem keepsToText_iff (access : Nat → Bool) (iconDir : List BYTE) {cmd : AdbCmd}
    (hb : cmd.biResult.room ≠ 0 → cmd.biResult.head = true) (fresh : Nat → BYTE) {s t : List BYTE}
    (hm : cmd.biOutput.mem.drop cmd.biOutput.data = s ++ 0 :: t) (h0 : 0 ∉ s) :
    KeepsToText access iconDir fresh cmd s t ↔ ∀ line ∈ listLines (announced s) s, 3 ≤ line.count 9 := by
  obtain ⟨v, hv, hsuf, hlines⟩ := listStart_eq s t
  have hloop := loop_keeps_iff (t := t) h0 (announced s) hsuf
  have hproc := @processResult_scan access iconDir _ hb fresh _ _ hm h0
  rw [hlines, ← hv] at hloop
  rw [← hloop]
  constructor
  · intro h
    refine ⟨?_, h.reads, h.records⟩
    obtain ⟨cmd', pulled, hok, -⟩ := h.ends
    cases hs : scanApps (announced s) (listStart (s ++ 0 :: t) s) with
    | error e =>
      rw [hs] at hproc
      dsimp only at hproc
      rw [hproc] at hok
      cases hok
    | ok as => exact ⟨as, rfl⟩
  · rintro ⟨⟨as, hs⟩, hreads, hrecords⟩
    rw [hs] at hproc
    dsimp only at hproc
    obtain ⟨cmd', pulled, hok, hcount, -⟩ := hproc
    exact ⟨⟨cmd', pulled, hok, by rw [hcount, length_recordsFrom hs]⟩, hreads, hrecords⟩

/-- One application announced, one line with its four fields. -/
theorem keepsToText_oneApp : KeepsToText (fun _ => true) [] (fun _ => 0)
    (AdbCmd.ofOutput (ascii "1" ++ crCrLf ++ ascii "Clock\tcom.clock\t2.0\t203"))
    (ascii "1" ++ crCrLf ++ ascii "Clock\tcom.clock\t2.0\t203") [] :=
  (keepsToText_iff (fun _ => true) [] (fun h => absurd rfl h) (fun _ => 0) rfl (by decide)).2 (by decide)

/-- An output buffer with an earlier, longer text behind the zero of the last one. -/
def reusedOutput : AdbCmd where
  biOutput :=
    { head := true, mem := ascii "1" ++ crCrLf ++ 0 :: (ascii "a\tb\tc\t7" ++ [0]), data := 0, tail := 5, dataLen := 5 }
  biResult := .new

/-- **A text that ends behind a line end is read beyond its zero**: the fields are those of the earlier text. -/
theorem reusedOutput_not_keepsToText :
    reusedOutput.szOutput = some (ascii "1" ++ crCrLf) ∧
    reusedOutput.biOutput.mem.drop reusedOutput.biOutput.data =
      ascii "1" ++ crCrLf ++ 0 :: (ascii "a\tb\tc\t7" ++ [0]) ∧
    ¬ KeepsToText (fun _ => true) [] (fun _ => 0) reusedOutput (ascii "1" ++ crCrLf) (ascii "a\tb\tc\t7" ++ [0]) := by
  refine ⟨by decide, rfl, fun h => ?_⟩
  -- the pointer to the second field
  obtain ⟨v, -, hv⟩ := h.reads (ascii "a\tb\tc\t7" ++ [0]) (by decide)
  have hlen := congrArg List.length hv
  simp only [List.length_append, List.length_cons] at hlen
  omega

end AdbCmdGetApkList

end DevMgr
