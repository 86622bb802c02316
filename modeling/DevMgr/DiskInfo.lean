import DevMgr.CmdResults
/-!
# DiskInfo — the space that is free and the space that is used

`AdbCmdGetDiskInfo` looks in the output of `dumpsys diskstats` for `Data-Free: `, a number, `K / ` and another number,
and leaves 0 for a number that it does not find; `DevTableMod` writes their difference as the space that is used.
-/
namespace DevMgr.AdbCmdGetDiskInfo

open MiscUtils BufferItem CmdArgs

/-- `nFree` and `nTotal`. -/
def readKB (p : List BYTE) : DWORD × DWORD :=
  match matchStringAnywhere p (ascii "Data-Free: ") with
  | none => (0, 0)
  | some p =>
    let (_, nFree, p) := parseDWord p false
    match matchStringBeginning p (ascii "K / ") with
    | none => (nFree, 0)
    | some p => (nFree, (parseDWord p false).2.1)

/-- `RET_GET_DISKINFO` at `pInfo`. -/
def stores (pInfo dwSize : Nat) (nFree nTotal : DWORD) : List (Nat × List BYTE) :=
  [(pInfo, dwordBytes (.ofNat dwSize)), (pInfo + 4, dwordBytes (.ofNat errorSuccess)),
    (pInfo + offsetFreeKB, dwordBytes nFree), (pInfo + offsetTotalKB, dwordBytes nTotal)]

def processResult (fresh : Nat → BYTE) (cmd : AdbCmd) : Except CmdFault AdbCmd :=
  match allocPut cmd.biResult sizeofRetGetDiskinfo fresh with
  | .error e => .error e
  | .ok (b, pInfo) => match cmd.szOutput with
    | none => .error .overread
    | some p =>
      let (nFree, nTotal) := readKB p
      .ok { cmd with biResult := b.writes (stores pInfo b.dataSize nFree nTotal) }

/-- What `DevTableMod` writes of an output. -/
def update (fresh fresh' : Nat → BYTE) (cmd : AdbCmd) : Except CmdFault (Option DevUpdate) := do
  let cmd ← processResult fresh cmd
  let biResult ← cmd.resultCopy fresh'
  DevTableMod.onExecuted .getDiskinfo biResult

/-- The used space that is written is no more than the whole. -/
def NeverWraps (fresh fresh' : Nat → BYTE) (cmd : AdbCmd) : Prop :=
  ∃ spaceUsed spaceAll, update fresh fresh' cmd = .ok (some (.diskInfo spaceUsed spaceAll)) ∧ spaceUsed ≤ spaceAll

/-- The number at the beginning of a text, 0 where there is none, and the text behind it. -/
def numberAt (s : List BYTE) : Nat := (numeral s).elim 0 Prod.fst
def behindNumber (s : List BYTE) : List BYTE := (numeral s).elim s Prod.snd

/-- The free and the whole space that a text tells, 0 where it tells none. -/
def toldKB (s : List BYTE) : Nat × Nat :=
  match matchStringAnywhere s (ascii "Data-Free: ") with
  | none => (0, 0)
  | some p => (numberAt p, if ascii "K / " <+: behindNumber p then numberAt ((behindNumber p).drop 4) else 0)

/-! ## What is read -/

theorem parseDWord_number (s : List BYTE) :
    (parseDWord s false).2 = (.ofNat (numberAt s), behindNumber s) := by
  rw [parseDWord_numeral, numberAt, behindNumber]
  cases numeral s with
  | none => rfl
  | some np => rfl

theorem matchStringBeginning_eq (szString szMatch : List BYTE) : matchStringBeginning szString szMatch =
    if szMatch <+: szString then some (szString.drop szMatch.length) else none := by
  split
  · rename_i hp
    obtain ⟨p, rfl⟩ := hp
    rw [List.drop_left]
    exact matchStringBeginning_some.2 rfl
  · exact matchStringBeginning_none.2 ‹_›

/-- **The numbers that are read are those of the text, in 32 bits.** -/
theorem readKB_told (s : List BYTE) : readKB s = (.ofNat (toldKB s).1, .ofNat (toldKB s).2) := by
  unfold readKB toldKB
  cases matchStringAnywhere s (ascii "Data-Free: ") with
  | none => rfl
  | some p =>
    have hp := parseDWord_number p
    have hfree : (parseDWord p false).2.1 = .ofNat (numberAt p) := congrArg Prod.fst hp
    have hrest : (parseDWord p false).2.2 = behindNumber p := congrArg Prod.snd hp
    dsimp only
    rw [matchStringBeginning_eq, hfree, hrest]
    by_cases hk : ascii "K / " <+: behindNumber p
    · rw [if_pos hk, if_pos hk]
      dsimp only
      rw [parseDWord_number]
      rfl
    · rw [if_neg hk, if_neg hk]
      rfl

theorem stores_apart (dwSize : Nat) (nFree nTotal : DWORD) :
    (∀ st ∈ stores 0 dwSize nFree nTotal, st.1 ≤ sizeofRetGetDiskinfo) ∧
      (stores 0 dwSize nFree nTotal).Pairwise Apart := by
  have hlen : ∀ x, (dwordBytes x).length = 4 := fun _ => rfl
  have hF : offsetFreeKB = 8 := rfl
  have hT : offsetTotalKB = 12 := rfl
  constructor
  · simp [stores, sizeofRetGetDiskinfo, hF, hT]
  · simp [stores, Apart, hlen, hF, hT]

/-- The result has the numbers that were read. -/
theorem processResult_ok {cmd : AdbCmd} (hb : cmd.biResult.room ≠ 0 → cmd.biResult.head = true) (fresh : Nat → BYTE)
    {s : List BYTE} (hs : cmd.szOutput = some s) : ∃ cmd', processResult fresh cmd = .ok cmd' ∧
      IsResult cmd'.biResult sizeofRetGetDiskinfo ∧ cmd'.biResult.Holds offsetFreeKB (dwordBytes (readKB s).1) ∧
      cmd'.biResult.Holds offsetTotalKB (dwordBytes (readKB s).2) := by
  obtain ⟨b, hput, hr, -⟩ := allocPut_isResult hb (show 0 < sizeofRetGetDiskinfo by decide) fresh
  obtain ⟨hin, hsep⟩ := stores_apart b.dataSize (readKB s).1 (readKB s).2
  have hall := hr.holds hin hsep
  refine ⟨{ cmd with biResult := b.writes (stores 0 b.dataSize (readKB s).1 (readKB s).2) }, ?_, hr.writes _, ?_, ?_⟩
  · rw [processResult, hput, hs]
  · exact hall (offsetFreeKB, dwordBytes (readKB s).1) (by simp [stores])
  · exact hall (offsetTotalKB, dwordBytes (readKB s).2) (by simp [stores])

/-- **What is written is the difference of the numbers of the text**, and the second of them. -/
theorem update_told {cmd : AdbCmd} (hb : cmd.biResult.room ≠ 0 → cmd.biResult.head = true)
    (fresh fresh' : Nat → BYTE) {s : List BYTE} (hs : cmd.szOutput = some s) : update fresh fresh' cmd =
      .ok (some (.diskInfo (.ofNat (toldKB s).2 - .ofNat (toldKB s).1) (.ofNat (toldKB s).2))) := by
  obtain ⟨cmd', hproc, hr, hfree, htotal⟩ := processResult_ok hb fresh hs
  obtain ⟨b, hcopy, hrb, hmem⟩ := resultCopy_isResult hr (show 0 < sizeofRetGetDiskinfo by decide) fresh'
  rw [readKB_told] at hfree htotal
  have hf := dwordField_of_holds (hr.copy_holds hmem hfree (show 8 + 4 ≤ 16 by decide))
  have ht := dwordField_of_holds (hr.copy_holds hmem htotal (show 12 + 4 ≤ 16 by decide))
  have hexec : DevTableMod.onExecuted .getDiskinfo b =
      .ok (some (.diskInfo (.ofNat (toldKB s).2 - .ofNat (toldKB s).1) (.ofNat (toldKB s).2))) := by
    unfold DevTableMod.onExecuted
    dsimp only
    rw [if_neg (show ¬ b.dataSize < _ from Nat.not_lt.2 hrb.size.ge), SmartDeviceAdb.argDword,
      SmartDeviceAdb.argDword, hrb.data, Nat.zero_add, Nat.zero_add, hf, ht]
    rfl
  rw [update, hproc, ← hexec]
  exact congrArg (fun r => r >>= DevTableMod.onExecuted .getDiskinfo) hcopy

/-- **The difference of two words is at most the first exactly when the second is.** -/
theorem sub_le_iff (dwTotalKB dwFreeKB : DWORD) : dwTotalKB - dwFreeKB ≤ dwTotalKB ↔ dwFreeKB ≤ dwTotalKB := by
  have ht := dwTotalKB.toNat_lt
  have hf := dwFreeKB.toNat_lt
  rw [UInt32.le_iff_toNat_le, UInt32.le_iff_toNat_le, UInt32.toNat_sub]
  omega

/-- **The used space does not wrap exactly when the text tells no more free space than there is**, in 32 bits. -/
theorem neverWraps_iff {cmd : AdbCmd} (hb : cmd.biResult.room ≠ 0 → cmd.biResult.head = true)
    (fresh fresh' : Nat → BYTE) {s : List BYTE} (hs : cmd.szOutput = some s) :
    NeverWraps fresh fresh' cmd ↔ (toldKB s).1 % 2 ^ 32 ≤ (toldKB s).2 % 2 ^ 32 := by
  have hword : (UInt32.ofNat (toldKB s).1 ≤ UInt32.ofNat (toldKB s).2) ↔
      (toldKB s).1 % 2 ^ 32 ≤ (toldKB s).2 % 2 ^ 32 := by
    rw [UInt32.le_iff_toNat_le, UInt32.toNat_ofNat', UInt32.toNat_ofNat']
  rw [← hword, ← sub_le_iff, NeverWraps, update_told hb fresh fresh' hs]
  constructor
  · rintro ⟨spaceUsed, spaceAll, he, hle⟩
    cases he
    exact hle
  · exact fun h => ⟨_, _, rfl, h⟩

theorem neverWraps_ofOutput : NeverWraps (fun _ => 0) (fun _ => 0) (.ofOutput (ascii "Data-Free: 5K / 12K total")) :=
  (neverWraps_iff (s := ascii "Data-Free: 5K / 12K total") (fun h => absurd rfl h) _ _ (by decide)).2 (by decide)

/-- **A listing that ends behind the free space**: the whole is 0, and the used space nearly 2^32. -/
theorem noTotal_wraps : ¬ NeverWraps (fun _ => 0) (fun _ => 0) (.ofOutput (ascii "Data-Free: 5K")) := by
  have hrun : update (fun _ => 0) (fun _ => 0) (.ofOutput (ascii "Data-Free: 5K")) =
      .ok (some (.diskInfo 4294967291 0)) := by decide
  rintro ⟨spaceUsed, spaceAll, he, hle⟩
  rw [hrun] at he
  cases he
  exact absurd hle (by decide)

end DevMgr.AdbCmdGetDiskInfo
