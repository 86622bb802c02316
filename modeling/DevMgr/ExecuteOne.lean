import DevMgr.CmdExecute
/-!
# ExecuteOne — what the observer of a command is given

`SmartDeviceAdb::ExecuteOne` calls `OnFailed` for a command whose `Execute` returns an error, and `OnExecuted` with a
copy of the result for any other; the observers cast it to the structure of the code.
-/
namespace DevMgr.SmartDeviceAdb

open MiscUtils BufferItem AdbCmdGetProp

/-- The last call of the record's observer. -/
inductive CmdOutcome where
  | onCancelled
  | onFailed (dwResult : Nat)
  | onExecuted (biResult : BufferItem)
  deriving DecidableEq, Repr

def executeOne (deviceState : DevState) (w : CmdWorld) (pCmd : Command) (fresh : Nat → BYTE) :
    Except CmdFault CmdOutcome :=
  if deviceState ≠ .main then .ok .onCancelled
  else match pCmd.execute w with
    | .error e => .error e
    | .ok (cmd, dwRet) =>
      if dwRet ≠ errorSuccess then .ok (.onFailed dwRet)
      else match cmd.resultCopy fresh with
        | .error e => .error e
        | .ok biResult => .ok (.onExecuted biResult)

/-- The structures of the codes, but for the list's. -/
def sizeofRet : DevCmdCode → Nat
  | .installApp | .installInfoview => sizeofRetInstallApp
  | .uninstallApp => sizeofRetUninstallApp
  | .pushFile | .pullFile => sizeofRetPushPullFile
  | .labelShow => sizeofRetStartService
  | .screenCap => sizeofRetScreenCap
  | .getSysinfo => sizeofRetGetSysinfo
  | .getBattinfo => sizeofRetGetBattinfo
  | .getDiskinfo => sizeofRetGetDiskinfo
  | .getApplist => sizeofAppListHdr
  | .delFile => sizeofRetDelFile
  | .findMe => sizeofRetFindMe

/-- The result has the structure of the code, a list with as many records as it counts. -/
def Usable (cmdCode : DevCmdCode) (biResult : BufferItem) : Prop :=
  sizeofRet cmdCode ≤ biResult.dataSize ∧ (cmdCode = .getApplist →
    ∃ dwCount ∈ dwordField biResult.mem (biResult.data + 8),
      sizeofAppListHdr + sizeofAppInfo * dwCount.toNat ≤ biResult.dataSize)

/-- The observer of a command that succeeded is given a result that it can use; that of any other is told the error. -/
structure Honest (cmdCode : DevCmdCode) (dwRet : Nat) (outcome : Except CmdFault CmdOutcome) : Prop where
  succeeded : dwRet = errorSuccess → ∃ biResult, outcome = .ok (.onExecuted biResult) ∧ Usable cmdCode biResult
  failed : dwRet ≠ errorSuccess → outcome = .ok (.onFailed dwRet)

/-! ## The class of a code -/

section
variable {cmdCode : DevCmdCode} {pbiArgs : BufferItem} {pCmd : Command}

/-- **The class of a code leaves the structure of the code.** -/
theorem createCmd_sizeof (h : createCmd cmdCode pbiArgs = .ok pCmd) (hc : cmdCode ≠ .getApplist) :
    pCmd.sizeofResult = some (sizeofRet cmdCode) := by
  cases cmdCode with
  | installApp | installInfoview | uninstallApp | screenCap | delFile =>
    obtain ⟨s, -, hs⟩ := bind_eq_ok.1 h
    cases hs
    rfl
  | pushFile | pullFile =>
    obtain ⟨szPathH, -, h₁⟩ := bind_eq_ok.1 h
    obtain ⟨szPathD, -, h₂⟩ := bind_eq_ok.1 h₁
    obtain ⟨szFileD, -, h₃⟩ := bind_eq_ok.1 h₂
    cases h₃
    rfl
  | labelShow =>
    rw [createCmd] at h
    split at h
    · cases h
    · obtain ⟨dwNum, -, hnum⟩ := bind_eq_ok.1 h
      cases hnum
      rfl
  | getSysinfo =>
    obtain ⟨dwMask, -, hmask⟩ := bind_eq_ok.1 h
    cases hmask
    rfl
  | getBattinfo | getDiskinfo | findMe =>
    cases h
    rfl
  | getApplist => exact absurd rfl hc

theorem createCmd_getApplist (h : createCmd .getApplist pbiArgs = .ok pCmd) :
    ∃ szIconDir, pCmd = .getApkList szIconDir := by
  obtain ⟨s, -, hs⟩ := bind_eq_ok.1 h
  cases hs
  exact ⟨s, rfl⟩

/-! ## The outcome -/

variable {w : CmdWorld} {cmd : AdbCmd} {dwRet : Nat}

theorem executeOne_ran (hrun : pCmd.execute w = .ok (cmd, dwRet)) (fresh : Nat → BYTE) :
    executeOne .main w pCmd fresh = if dwRet ≠ errorSuccess then .ok (.onFailed dwRet)
      else match cmd.resultCopy fresh with
        | .error e => .error e
        | .ok biResult => .ok (.onExecuted biResult) := by
  rw [executeOne, if_neg (not_not_intro rfl), hrun]

/-- The copy of a list has its records. -/
theorem usable_list (h : IsList cmd) (fresh : Nat → BYTE) :
    ∃ biResult, cmd.resultCopy fresh = .ok biResult ∧ Usable .getApplist biResult := by
  obtain ⟨dwCount, hcount, hsize⟩ := h.size
  have hpos : sizeofAppListHdr ≤ cmd.biResult.dataSize := by
    rw [hsize]
    exact Nat.le_add_right ..
  have hcontent : cmd.biResult.content = cmd.biResult.mem.take cmd.biResult.dataSize := by
    rw [content, h.data, List.drop_zero]
    rfl
  obtain ⟨b, hb, hr, hmem⟩ := @resultCopy_of_content cmd (by
    rw [hcontent, List.length_take]
    exact Nat.min_eq_left h.room) (Nat.lt_of_lt_of_le (by decide) hpos) fresh
  have hdw : dwordField b.mem (b.data + 8) = some dwCount := by
    rw [← show cmd.dwCount = some dwCount from hcount, AdbCmd.dwCount, h.data, List.drop_zero, hr.data, hmem, hcontent]
    apply dwordField_congr
    intro k hk
    have hhdr : sizeofAppListHdr = 12 := rfl
    rw [List.getElem?_take_of_lt (by omega)]
  have hdata : b.dataSize = cmd.biResult.dataSize := hr.size
  exact ⟨b, hb, hpos.trans hdata.ge, fun _ => ⟨dwCount, hdw, (hsize.symm.trans hdata.symm).le⟩⟩

/-- **The observer of a command is told the truth exactly when**, for the list of applications, the child that prints
the list could be created: that class alone succeeds without one. -/
theorem executeOne_honest_iff (hcmd : createCmd cmdCode pbiArgs = .ok pCmd)
    (hrun : pCmd.execute w = .ok (cmd, dwRet)) (fresh : Nat → BYTE) :
    Honest cmdCode dwRet (executeOne .main w pCmd fresh) ↔
      (cmdCode = .getApplist → w.run.child.createRet = errorSuccess) := by
  rw [executeOne_ran hrun]
  by_cases hc : cmdCode = .getApplist
  · subst hc
    obtain ⟨szIconDir, rfl⟩ := createCmd_getApplist hcmd
    obtain ⟨rfl, hlist, hnone⟩ := AdbCmdGetApkList.execute_result hrun
    rw [if_neg (not_not_intro rfl)]
    constructor
    · intro h _
      by_contra hchild
      obtain ⟨biResult, hout, husable, -⟩ := h.succeeded rfl
      rw [hnone hchild] at hout
      cases hout
      exact absurd husable (by decide)
    · intro h
      obtain ⟨biResult, hcopy, husable⟩ := usable_list (hlist (h rfl)) fresh
      rw [hcopy]
      exact ⟨fun _ => ⟨biResult, rfl, husable⟩, fun hne => absurd rfl hne⟩
  · refine iff_of_true ?_ fun h => absurd h hc
    by_cases hret : dwRet = errorSuccess
    · subst hret
      have hr := Command.execute_sizeof (createCmd_sizeof hcmd hc) hrun
      have hpos : 0 < sizeofRet cmdCode := by cases cmdCode <;> decide
      obtain ⟨biResult, hcopy, hres, -⟩ := resultCopy_isResult hr hpos fresh
      have hsize : biResult.dataSize = sizeofRet cmdCode := hres.size
      rw [if_neg (not_not_intro rfl), hcopy]
      exact ⟨fun _ => ⟨biResult, rfl, hsize.ge, fun h => absurd h hc⟩, fun hne => absurd rfl hne⟩
    · rw [if_pos hret]
      exact ⟨fun h => absurd h hret, fun _ => rfl⟩

end

/-- No child can be created, and MTP sends a file. -/
def bareWorld : CmdWorld where
  run := ⟨⟨errorOutOfMemory, []⟩, fun _ _ => 0, fun _ => 0⟩
  mtpSendFile := errorSuccess
  service := ⟨⟨errorOutOfMemory, []⟩, fun _ _ => 0, fun _ => 0⟩
  pull _ := ⟨⟨errorOutOfMemory, []⟩, fun _ _ => 0, fun _ => 0⟩
  access _ := false
  osVer := noChild
  brand := noChild
  model := noChild

/-- Arguments that are all zeros. -/
def zeroArgs (size : Nat) : BufferItem :=
  { head := true, mem := List.replicate size 0, data := 0, tail := size, dataLen := size }

/-- A string in a field of `MAX_PATH` bytes. -/
def pathField (str : List BYTE) : List BYTE := str ++ List.replicate (maxPath - str.length) 0

/-- `ARGS_PUSH_PULL_FILE` of a file. -/
def pushArgs : BufferItem where
  head := true
  mem := pathField (ascii "/data/a.txt") ++ pathField (ascii "/sdcard") ++ pathField (ascii "a.txt")
  data := 0
  tail := 3 * maxPath
  dataLen := 3 * maxPath

/-- MTP cannot send the file, and the child that pushes it says what it has done. -/
def pushingWorld : CmdWorld where
  run := ⟨⟨errorSuccess, [ascii "12 KB/s (3456 ", ascii "bytes in 0.281s)\n"]⟩, fun _ _ => 205, fun _ => 205⟩
  mtpSendFile := errorNotSupported
  service := bareWorld.service
  pull := bareWorld.pull
  access := bareWorld.access
  osVer := noChild
  brand := noChild
  model := noChild

theorem executeOne_honest_push : ∃ pCmd, createCmd .pushFile pushArgs = .ok pCmd ∧
    pCmd = .pushPullFile (ascii "/data/a.txt") (ascii "/sdcard") (ascii "a.txt") true ∧
    Honest .pushFile errorSuccess (executeOne .main pushingWorld pCmd fun _ => 205) := by
  have hcmd : createCmd .pushFile pushArgs =
      .ok (.pushPullFile (ascii "/data/a.txt") (ascii "/sdcard") (ascii "a.txt") true) := by decide +kernel
  obtain ⟨⟨cmd, dwRet⟩, hrun, hret⟩ := Option.map_eq_some_iff.1
    (show ((Command.pushPullFile (ascii "/data/a.txt") (ascii "/sdcard") (ascii "a.txt") true).execute
      pushingWorld).toOption.map Prod.snd = some errorSuccess by decide +kernel)
  obtain rfl : dwRet = errorSuccess := hret
  exact ⟨_, hcmd, rfl, (executeOne_honest_iff hcmd (AdbCmd.ok_of_toOption hrun) _).2 fun h => by cases h⟩

/-- **A list whose child cannot be created is a success**, and `OnExecuted` is given no bytes at all. -/
theorem noChild_not_honest : createCmd .getApplist (zeroArgs 1) = .ok (.getApkList []) ∧
    (Command.getApkList []).execute bareWorld = .ok (newCmd, errorSuccess) ∧
    ¬ Honest .getApplist errorSuccess (executeOne .main bareWorld (.getApkList []) fun _ => 0) := by
  have hrun : executeOne .main bareWorld (.getApkList []) (fun _ => 0) = .ok (.onExecuted .new) := rfl
  refine ⟨by decide, rfl, fun h => ?_⟩
  obtain ⟨biResult, hout, husable, -⟩ := h.succeeded rfl
  rw [hrun] at hout
  cases hout
  exact absurd husable (by decide)

end DevMgr.SmartDeviceAdb
