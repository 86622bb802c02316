import DevMgr.AppCursor
import DevMgr.DiskInfo
import DevMgr.SysInfo
/-!
# CmdExecute — what each command object does with its child

`Execute` of the command classes, each on the object that `CreateCmd` has made.  Some run other commands on the way (the
service that refreshes the device, the pulls of files), look at the host's files, or try MTP first; what these meet is
in a `CmdWorld`.
-/
namespace DevMgr

open MiscUtils BufferItem CmdArgs AdbCmdGetProp

def errorAccessDenied : Nat := 5
def errorNotReady : Nat := 21
def errorAlreadyExists : Nat := 183

def maxFileSuffixLen : Nat := 16

def sizeofRetInstallApp : Nat := sizeofRetCommHdr
def sizeofRetUninstallApp : Nat := sizeofRetCommHdr
def sizeofRetPushPullFile : Nat := sizeofRetCommHdr
def sizeofRetStartService : Nat := sizeofRetCommHdr
def sizeofRetDelFile : Nat := sizeofRetCommHdr
def sizeofRetFindMe : Nat := sizeofRetCommHdr
def sizeofRetScreenCap : Nat := sizeofRetCommHdr + maxFileSuffixLen

/-- A child of a command, and the bytes that `new` returns for the output and the result. -/
structure ChildRun where
  child : ChildProcess
  output : Nat → Nat → BYTE
  result : Nat → BYTE

/-- What one command meets: its own child, what `MtpSendFile` returns, the children of the service and the pulls that it
runs, whether an icon is on the host, and the queries for properties. -/
structure CmdWorld where
  run : ChildRun
  mtpSendFile : Nat
  service : ChildRun
  pull : Nat → ChildRun
  access : Nat → Bool
  osVer : PropQuery
  brand : PropQuery
  model : PropQuery

/-- The header of a result. -/
def hdrStores (pHdr dwSize dwResult : Nat) : List (Nat × List BYTE) :=
  [(pHdr, dwordBytes (.ofNat dwSize)), (pHdr + 4, dwordBytes (.ofNat dwResult))]

namespace AdbCmd

/-- `ADB_CMD_RET_MAP`. -/
def adbCmdRetMap : List (String × Nat) :=
  [("Success", errorSuccess),
    ("can't find", errorNotFound),
    ("does not exist", errorNotFound),
    ("No such file or directory", errorNotFound),
    ("device not found", errorNotConnected),
    ("device offline", errorNotConnected),
    ("Permission denied", errorAccessDenied),
    ("INSTALL_FAILED_ALREADY_EXISTS", errorAlreadyExists),
    ("no service started", errorNotReady),
    ("Can't connect to activity manager", errorNotReady),
    ("Could not access the Package Manager", errorNotReady),
    ("bytes in", errorSuccess),
    ("Starting service:", errorSuccess)]

/-- The first text of the map that is in the output. -/
def outputResult (szOutput : List BYTE) : Nat :=
  match adbCmdRetMap.find? fun m => (matchStringAnywhere szOutput (ascii m.1)).isSome with
  | none => errorNotSupported
  | some m => m.2

def processResult (cmd : AdbCmd) : Except CmdFault AdbCmd :=
  if cmd.biResult.dataSize < sizeofRetCommHdr then .error .resultSize
  else match cmd.szOutput with
    | none => .error .overread
    | some szOutput =>
      let b := cmd.biResult
      .ok { cmd with biResult := b.writes (hdrStores b.data b.dataSize (outputResult szOutput)) }

/-- `Alloc`, `Put` and the base's `ProcessResult`, as several classes have it. -/
def processSized (size : Nat) (fresh : Nat → BYTE) (cmd : AdbCmd) : Except CmdFault AdbCmd :=
  match allocPut cmd.biResult size fresh with
  | .error e => .error e
  | .ok (b, _) => processResult { cmd with biResult := b }

/-- `Alloc`, `Put` and stores to the structure, given its size, which do not look at the output. -/
def processStores (size : Nat) (fresh : Nat → BYTE) (stores : Nat → List (Nat × List BYTE)) (cmd : AdbCmd) :
    Except CmdFault AdbCmd :=
  match allocPut cmd.biResult size fresh with
  | .error e => .error e
  | .ok (b, p) => .ok { cmd with biResult := b.writes (hdrStores p b.dataSize errorSuccess ++ stores p) }

end AdbCmd

open AdbCmd

def AdbCmdUninstallApk.processResult : (Nat → BYTE) → AdbCmd → Except CmdFault AdbCmd :=
  processSized sizeofRetUninstallApp

def AdbCmdStartService.processResult : (Nat → BYTE) → AdbCmd → Except CmdFault AdbCmd :=
  processSized sizeofRetStartService

def AdbCmdDelFile.processResult (fresh : Nat → BYTE) : AdbCmd → Except CmdFault AdbCmd :=
  processStores sizeofRetDelFile fresh fun _ => []

def AdbCmdStartService.execute (r : ChildRun) (cmd : AdbCmd) : Except CmdFault (AdbCmd × Nat) :=
  cmd.execute (AdbCmdStartService.processResult r.result) errorSuccess r.child r.output

/-- The service is started whatever the result says. -/
def AdbCmdInstallApk.processResult (fresh : Nat → BYTE) (service : ChildRun) (cmd : AdbCmd) : Except CmdFault AdbCmd :=
  match processSized sizeofRetInstallApp fresh cmd with
  | .error e => .error e
  | .ok cmd => match AdbCmdStartService.execute service newCmd with
    | .error e => .error e
    | .ok _ => .ok cmd

/-- MTP is tried first for a push. -/
def AdbCmdPushPullFile.execute (bPush : Bool) (mtpSendFile : Nat) (r : ChildRun) (cmd : AdbCmd) :
    Except CmdFault (AdbCmd × Nat) :=
  match allocPut cmd.biResult sizeofRetPushPullFile r.result with
  | .error e => .error e
  | .ok (b, _) =>
    if bPush ∧ mtpSendFile = errorSuccess then
      .ok ({ cmd with biResult := b.writes (hdrStores b.data sizeofRetPushPullFile errorSuccess) }, errorSuccess)
    else AdbCmd.execute AdbCmd.processResult { cmd with biResult := b } errorSuccess r.child r.output

/-- A line of the output that begins with `label`: the value in `buf`, up to the `'\r'`, and the pointer. -/
def AdbCmdGetBattInfo.parseLabel (p label : List BYTE) : List BYTE × List BYTE :=
  match matchStringAnywhere p label with
  | none => ([], p)
  | some p =>
    let (buf, q) := parseUnquotedString p 13 20
    (buf.takeWhile (· ≠ 0), q.getD p)

/-- `bCharging` and `bLevel`. -/
def AdbCmdGetBattInfo.readBatt (p : List BYTE) : BYTE × BYTE :=
  let (buf1, p) := parseLabel p (ascii "  AC powered: ")
  let (buf2, p) := parseLabel p (ascii "  USB powered: ")
  let nLevel : DWORD := match matchStringAnywhere p (ascii "  level: ") with
    | none => 0
    | some p => (parseDWord p false).2.1
  (if buf1 = ascii "true" ∨ buf2 = ascii "true" then 1 else 0, nLevel.toUInt8)

def AdbCmdGetBattInfo.processResult (fresh : Nat → BYTE) (cmd : AdbCmd) : Except CmdFault AdbCmd :=
  match cmd.szOutput with
  | none => .error .overread
  | some p =>
    let (bCharging, bLevel) := readBatt p
    processStores sizeofRetGetBattinfo fresh
      (fun pInfo => [(pInfo + sizeofRetCommHdr, [bCharging]), (pInfo + offsetLevel, [bLevel])]) cmd

/-- The screen's file is pulled whatever the child wrote. -/
def AdbCmdScreenCap.processResult (fresh : Nat → BYTE) (pull : ChildRun) (cmd : AdbCmd) : Except CmdFault AdbCmd :=
  match processStores sizeofRetScreenCap fresh (fun p => [(p + sizeofRetCommHdr, ascii "png" ++ [0])]) cmd with
  | .error e => .error e
  | .ok cmd => match AdbCmdPushPullFile.execute false errorNotSupported pull newCmd with
    | .error e => .error e
    | .ok _ => .ok cmd

namespace AdbCmdGetApkList

/-- The pulls of the icons, with one object; they leave the list alone, so they are run behind it. -/
def pullIcons (pull : Nat → ChildRun) : Nat → List (List BYTE) → AdbCmd → Except CmdFault AdbCmd
  | _, [], cmd => .ok cmd
  | i, _ :: bufHs, cmd => match AdbCmdPushPullFile.execute false errorNotSupported (pull i) cmd with
    | .error e => .error e
    | .ok (cmd, _) => pullIcons pull (i + 1) bufHs cmd

/-- `ProcessResult`, with the pulls. -/
def processAll (iconDir : List BYTE) (w : CmdWorld) (cmd : AdbCmd) : Except CmdFault AdbCmd :=
  match processResult w.access iconDir w.run.result cmd with
  | .error e => .error e
  | .ok (cmd, bufHs) => match pullIcons w.pull 0 bufHs newCmd with
    | .error e => .error e
    | .ok _ => .ok cmd

/-- Nobody looks at what the service's command and the base's `Execute` return. -/
def execute (iconDir : List BYTE) (w : CmdWorld) (cmd : AdbCmd) : Except CmdFault (AdbCmd × Nat) :=
  match AdbCmdStartService.execute w.service newCmd with
  | .error e => .error e
  | .ok _ => match cmd.execute (processAll iconDir w) errorSuccess w.run.child w.run.output with
    | .error e => .error e
    | .ok (cmd, _) => .ok (cmd, errorSuccess)

end AdbCmdGetApkList

/-- `pCmd->Execute()`, on a new object of the class. -/
def Command.execute (w : CmdWorld) : Command → Except CmdFault (AdbCmd × Nat)
  | .installApk _ => base (AdbCmdInstallApk.processResult w.run.result w.service)
  | .uninstallApk _ => base (AdbCmdUninstallApk.processResult w.run.result)
  | .pushPullFile _ _ _ bPush => AdbCmdPushPullFile.execute bPush w.mtpSendFile w.run newCmd
  | .startService _ => AdbCmdStartService.execute w.run newCmd
  | .getSysInfo dwMask => match AdbCmdGetSysInfo.execute dwMask w.run.result w.osVer w.brand w.model with
    | .error e => .error e
    | .ok s => .ok (⟨.new, s.biResult⟩, errorSuccess)
  | .getBattInfo => base (AdbCmdGetBattInfo.processResult w.run.result)
  | .getDiskInfo => base (AdbCmdGetDiskInfo.processResult w.run.result)
  | .getApkList szIconDir => AdbCmdGetApkList.execute szIconDir w newCmd
  | .screenCap _ => base (AdbCmdScreenCap.processResult w.run.result (w.pull 0))
  | .delFile _ => base (AdbCmdDelFile.processResult w.run.result)
where
  base (processResult : AdbCmd → Except CmdFault AdbCmd) : Except CmdFault (AdbCmd × Nat) :=
    newCmd.execute processResult errorSuccess w.run.child w.run.output

/-! ## What is left in `_biResult` -/

/-- The size of the result of a class, where it does not depend on the output. -/
def Command.sizeofResult : Command → Option Nat
  | .installApk _ => some sizeofRetInstallApp
  | .uninstallApk _ => some sizeofRetUninstallApp
  | .pushPullFile .. => some sizeofRetPushPullFile
  | .startService _ => some sizeofRetStartService
  | .getSysInfo _ => some sizeofRetGetSysinfo
  | .getBattInfo => some sizeofRetGetBattinfo
  | .getDiskInfo => some sizeofRetGetDiskinfo
  | .getApkList _ => none
  | .screenCap _ => some sizeofRetScreenCap
  | .delFile _ => some sizeofRetDelFile

section
variable {cmd cmd' : AdbCmd} {size : Nat} {fresh : Nat → BYTE}

/-- An `Execute` that succeeded had its child, and the class made the result of what it wrote. -/
theorem AdbCmd.execute_success {processResult : AdbCmd → Except CmdFault AdbCmd} {child : ChildProcess}
    {output : Nat → Nat → BYTE} {dwRet : Nat}
    (h : AdbCmd.execute processResult cmd errorSuccess child output = .ok (cmd', dwRet)) (hret : dwRet = errorSuccess) :
    child.createRet = errorSuccess ∧ ∃ b, processResult { cmd with biOutput := b } = .ok cmd' := by
  by_cases hc : child.createRet = errorSuccess
  · exact ⟨hc, (AdbCmd.execute_some hc h).2⟩
  · rw [AdbCmd.execute, if_neg (not_not_intro rfl), if_pos hc] at h
    cases h
    exact absurd hret hc

theorem AdbCmd.processResult_some (h : AdbCmd.processResult cmd = .ok cmd') (hr : IsResult cmd.biResult size) :
    IsResult cmd'.biResult size := by
  unfold AdbCmd.processResult at h
  split at h
  · cases h
  · split at h
    · cases h
    · cases h
      exact hr.writes _

theorem AdbCmd.processSized_some (h : processSized size fresh cmd = .ok cmd') (hs : 0 < size)
    (hb : cmd.biResult.room ≠ 0 → cmd.biResult.head = true) : IsResult cmd'.biResult size := by
  obtain ⟨b, hput, hr, -⟩ := allocPut_isResult hb hs fresh
  rw [processSized, hput] at h
  exact AdbCmd.processResult_some h hr

theorem AdbCmd.processStores_some {stores : Nat → List (Nat × List BYTE)}
    (h : processStores size fresh stores cmd = .ok cmd') (hs : 0 < size)
    (hb : cmd.biResult.room ≠ 0 → cmd.biResult.head = true) : IsResult cmd'.biResult size := by
  obtain ⟨b, hput, hr, -⟩ := allocPut_isResult hb hs fresh
  rw [processStores, hput] at h
  cases h
  exact hr.writes _

theorem AdbCmdPushPullFile.execute_success {bPush : Bool} {mtpSendFile : Nat} {r : ChildRun}
    (h : AdbCmdPushPullFile.execute bPush mtpSendFile r cmd = .ok (cmd', errorSuccess))
    (hb : cmd.biResult.room ≠ 0 → cmd.biResult.head = true) : IsResult cmd'.biResult sizeofRetPushPullFile := by
  obtain ⟨b, hput, hr, -⟩ := allocPut_isResult hb (show 0 < sizeofRetPushPullFile by decide) r.result
  rw [AdbCmdPushPullFile.execute, hput] at h
  dsimp only at h
  split at h
  · cases h
    exact hr.writes _
  · obtain ⟨-, b', hproc⟩ := AdbCmd.execute_success h rfl
    exact AdbCmd.processResult_some hproc hr

end

section
variable {w : CmdWorld} {command : Command} {cmd : AdbCmd}

theorem base_success {processResult : AdbCmd → Except CmdFault AdbCmd}
    (h : Command.execute.base w processResult = .ok (cmd, errorSuccess)) : ∃ b, processResult ⟨b, .new⟩ = .ok cmd :=
  (AdbCmd.execute_success h rfl).2

/-- **A command that succeeds leaves a result of its class's size**, unless the class is the one of the list. -/
theorem Command.execute_sizeof {size : Nat} (hsize : command.sizeofResult = some size)
    (h : command.execute w = .ok (cmd, errorSuccess)) : IsResult cmd.biResult size := by
  cases command with
  | installApk szApkPath =>
    cases hsize
    obtain ⟨b, hproc⟩ := base_success h
    unfold AdbCmdInstallApk.processResult at hproc
    split at hproc
    · cases hproc
    · rename_i hsized
      split at hproc
      · cases hproc
      · cases hproc
        exact processSized_some hsized (by decide) fun h => absurd rfl h
  | uninstallApk szApkName =>
    cases hsize
    obtain ⟨b, hproc⟩ := base_success h
    exact processSized_some hproc (by decide) fun h => absurd rfl h
  | pushPullFile szFilePathH szPathD szFileD bPush =>
    cases hsize
    rw [Command.execute] at h
    exact AdbCmdPushPullFile.execute_success h fun h => absurd rfl h
  | startService szArgs =>
    cases hsize
    obtain ⟨-, b, hproc⟩ := AdbCmd.execute_success h rfl
    exact processSized_some hproc (by decide) fun h => absurd rfl h
  | getSysInfo dwMask =>
    cases hsize
    rw [Command.execute] at h
    split at h
    · cases h
    · rename_i s hs
      cases h
      obtain ⟨s', hs', -, hr, -⟩ :=
        AdbCmdGetSysInfo.execute_ok dwMask w.run.result (AdbCmdGetSysInfo.execute_some hs)
      rw [hs] at hs'
      cases hs'
      exact hr
  | getBattInfo =>
    cases hsize
    obtain ⟨b, hproc⟩ := base_success h
    unfold AdbCmdGetBattInfo.processResult at hproc
    split at hproc
    · cases hproc
    · exact processStores_some hproc (by decide) fun h => absurd rfl h
  | getDiskInfo =>
    cases hsize
    obtain ⟨b, hproc⟩ := base_success h
    obtain ⟨b', hput, hr, -⟩ := allocPut_isResult (b := .new) (fun h => absurd rfl h)
      (show 0 < sizeofRetGetDiskinfo by decide) w.run.result
    unfold AdbCmdGetDiskInfo.processResult at hproc
    dsimp only at hproc
    rw [hput] at hproc
    dsimp only at hproc
    split at hproc
    · cases hproc
    · cases hproc
      exact hr.writes _
  | getApkList szIconDir => cases hsize
  | screenCap szFileName =>
    cases hsize
    obtain ⟨b, hproc⟩ := base_success h
    unfold AdbCmdScreenCap.processResult at hproc
    split at hproc
    · cases hproc
    · rename_i hstores
      split at hproc
      · cases hproc
      · cases hproc
        exact processStores_some hstores (by decide) fun h => absurd rfl h
  | delFile szFileName =>
    cases hsize
    obtain ⟨b, hproc⟩ := base_success h
    exact processStores_some hproc (by decide) fun h => absurd rfl h

/-- A list with its records. -/
structure IsList (cmd : AdbCmd) : Prop where
  data : cmd.biResult.data = 0
  room : cmd.biResult.dataSize ≤ cmd.biResult.room
  size : ∃ dwCount ∈ cmd.dwCount, cmd.biResult.dataSize = sizeofAppListHdr + sizeofAppInfo * dwCount.toNat

theorem AdbCmdGetApkList.processResult_some {access : Nat → Bool} {iconDir : List BYTE} {fresh : Nat → BYTE}
    {cmd' : AdbCmd} {bufHs : List (List BYTE)}
    (h : AdbCmdGetApkList.processResult access iconDir fresh cmd = .ok (cmd', bufHs))
    (hb : cmd.biResult.room ≠ 0 → cmd.biResult.head = true) : IsList cmd' := by
  obtain ⟨s, hs⟩ : ∃ s, cString (cmd.biOutput.mem.drop cmd.biOutput.data) = some s := by
    cases hs : cString (cmd.biOutput.mem.drop cmd.biOutput.data) with
    | some s => exact ⟨s, rfl⟩
    | none =>
      unfold AdbCmdGetApkList.processResult at h
      split at h
      · cases h
      · split at h
        · cases h
        · dsimp only at h
          rw [hs] at h
          cases h
  obtain ⟨h0, t, ht⟩ := cString_eq_some.1 hs
  have hscan := @AdbCmdGetApkList.processResult_scan access iconDir cmd hb fresh s t ht h0
  split at hscan
  · rw [hscan] at h
    cases h
  · rename_i as has
    obtain ⟨cmd₁, pulled, hproc, hcount, hdata, hsize, hroom⟩ := hscan
    rw [hproc] at h
    cases h
    have hle : as.length ≤ maxAppListNum := by
      have hlen := AdbCmdGetApkList.length_recordsFrom has
      have hrec := AdbCmdGetApkList.recordsFrom_le (AdbCmdGetApkList.announced s)
        (AdbCmdGetApkList.listStart (s ++ 0 :: t) s)
      rw [hlen] at hrec
      exact hrec.trans (Nat.min_le_right ..)
    refine ⟨hdata, hroom, _, hcount, ?_⟩
    rw [hsize, UInt32.toNat_ofNat', Nat.mod_eq_of_lt (hle.trans_lt (by decide))]

theorem AdbCmdGetApkList.processAll_some {iconDir : List BYTE} {cmd' : AdbCmd}
    (h : AdbCmdGetApkList.processAll iconDir w cmd = .ok cmd')
    (hb : cmd.biResult.room ≠ 0 → cmd.biResult.head = true) : IsList cmd' := by
  unfold AdbCmdGetApkList.processAll at h
  split at h
  · cases h
  · rename_i hlist
    split at h
    · cases h
    · cases h
      exact AdbCmdGetApkList.processResult_some hlist hb

/-- **The command of the list succeeds whatever its children do**, and without its own child it leaves no result. -/
theorem AdbCmdGetApkList.execute_result {iconDir : List BYTE} {dwRet : Nat}
    (h : AdbCmdGetApkList.execute iconDir w newCmd = .ok (cmd, dwRet)) : dwRet = errorSuccess ∧
      (w.run.child.createRet = errorSuccess → IsList cmd) ∧ (w.run.child.createRet ≠ errorSuccess → cmd = newCmd) := by
  unfold AdbCmdGetApkList.execute at h
  split at h
  · cases h
  · split at h
    · cases h
    · rename_i cmd' ret hexec
      cases h
      refine ⟨rfl, fun hc => ?_, fun hc => ?_⟩
      · obtain ⟨-, b, hproc⟩ := AdbCmd.execute_some hc hexec
        exact AdbCmdGetApkList.processAll_some hproc fun h => absurd rfl h
      · rw [AdbCmd.execute, if_neg (not_not_intro rfl), if_pos hc] at hexec
        cases hexec
        rfl

end

end DevMgr
