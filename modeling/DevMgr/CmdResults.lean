import DevMgr.CmdArgs
/-!
# CmdResults — how a result reaches its observer

`ExecuteOne` gives `OnExecuted` a copy of the bytes in `_biResult`, and the observer casts it to the `RET_` structure
of the code.  The structures are packed, so they are given by the places of their fields.
-/
namespace DevMgr

open MiscUtils BufferItem CmdArgs

def sizeofRetCommHdr : Nat := 8

/-- `RET_GET_SYSINFO`. -/
def maxSysinfoItemLen : Nat := 32
def offsetOsName : Nat := sizeofRetCommHdr + 4
def offsetOsVer : Nat := offsetOsName + maxSysinfoItemLen
def offsetBrand : Nat := offsetOsVer + maxSysinfoItemLen
def offsetModel : Nat := offsetBrand + maxSysinfoItemLen
def sizeofRetGetSysinfo : Nat := offsetModel + maxSysinfoItemLen

/-- `RET_GET_BATTINFO`. -/
def offsetLevel : Nat := sizeofRetCommHdr + 1
def sizeofRetGetBattinfo : Nat := offsetLevel + 1

/-- `RET_GET_DISKINFO`. -/
def offsetFreeKB : Nat := sizeofRetCommHdr
def offsetTotalKB : Nat := offsetFreeKB + 4
def sizeofRetGetDiskinfo : Nat := offsetTotalKB + 4

namespace AdbCmd

/-- The bytes that are copied to a buffer of `dwBytes`, unless it is too small. -/
def getResult (cmd : AdbCmd) (dwBytes : Nat) : Option (List BYTE) :=
  if dwBytes < cmd.biResult.dataSize then none else some cmd.biResult.content

/-- The `biResult` of `ExecuteOne`. -/
def resultCopy (cmd : AdbCmd) (fresh : Nat → BYTE) : Except CmdFault BufferItem :=
  let dwSize := cmd.biResult.dataSize
  if dwSize = 0 then .ok .new
  else match allocPut .new dwSize fresh with
    | .error e => .error e
    | .ok (b, p) => .ok (b.write p ((cmd.getResult dwSize).getD []))

end AdbCmd

/-- What `DevTableMod::OnExecuted` sets in the row of the device. -/
inductive DevUpdate where
  | sysInfo (szModel szBrand szOsVer : List BYTE)
  | battInfo (bLevel : BYTE)
  | diskInfo (spaceUsed spaceAll : DWORD)
  deriving DecidableEq, Repr

namespace DevTableMod

/-- The update, where the code has one. -/
def onExecuted (cmdCode : DevCmdCode) (pbiResult : BufferItem) : Except CmdFault (Option DevUpdate) :=
  match cmdCode with
  | .getSysinfo =>
    if pbiResult.dataSize < sizeofRetGetSysinfo then .error .resultSize
    else do
      let szModel ← SmartDeviceAdb.argString pbiResult offsetModel
      let szBrand ← SmartDeviceAdb.argString pbiResult offsetBrand
      let szOsVer ← SmartDeviceAdb.argString pbiResult offsetOsVer
      return some (.sysInfo szModel szBrand szOsVer)
  | .getBattinfo =>
    if pbiResult.dataSize < sizeofRetGetBattinfo then .error .resultSize
    else match pbiResult.mem[pbiResult.data + offsetLevel]? with
      | none => .error .overread
      | some bLevel => .ok (some (.battInfo bLevel))
  | .getDiskinfo =>
    if pbiResult.dataSize < sizeofRetGetDiskinfo then .error .resultSize
    else do
      let dwFreeKB ← SmartDeviceAdb.argDword pbiResult offsetFreeKB
      let dwTotalKB ← SmartDeviceAdb.argDword pbiResult offsetTotalKB
      return some (.diskInfo (dwTotalKB - dwFreeKB) dwTotalKB)
  | _ => .ok none

end DevTableMod

/-! ## What the copy is -/

/-- An item whose data are a structure of `size` bytes at its beginning. -/
structure IsResult (b : BufferItem) (size : Nat) : Prop where
  good : b.Good
  data : b.data = 0
  size : b.dataLen = size

section
variable {b : BufferItem} {size : Nat}

theorem IsResult.writes (h : IsResult b size) (stores : List (Nat × List BYTE)) : IsResult (b.writes stores) size := by
  obtain ⟨hh, hd, ht, hl⟩ := writes_keeps b stores
  refine ⟨⟨hh.trans h.good.head, ?_, ?_⟩, hd.trans h.data, hl.trans h.size⟩
  · rw [ht, hd, hl, h.good.tail]
  · rw [ht]
    exact h.good.bound.trans (length_writes_ge b stores)

/-- The bytes of the structure are the first of the allocation. -/
theorem IsResult.content_eq (h : IsResult b size) : b.content = b.mem.take size := by
  rw [content, h.data, List.drop_zero, h.size]

theorem IsResult.room (h : IsResult b size) : size ≤ b.room := by
  have hb := h.good.bound
  rw [h.good.tail, h.data, h.size, Nat.zero_add] at hb
  exact hb

/-- Stores into the structure are all there, when they do not overlap. -/
theorem IsResult.holds (h : IsResult b size) {stores : List (Nat × List BYTE)} (hin : ∀ st ∈ stores, st.1 ≤ size)
    (hsep : stores.Pairwise Apart) : ∀ st ∈ stores, (b.writes stores).Holds st.1 st.2 :=
  holds_writes (fun st hst => (hin st hst).trans h.room) hsep

/-- A field of the structure is one of a copy of its bytes. -/
theorem IsResult.copy_holds (h : IsResult b size) {c : BufferItem} (hc : c.mem = b.content) {o : Nat} {bs : List BYTE}
    (ho : b.Holds o bs) (hin : o + bs.length ≤ size) : c.Holds o bs := by
  intro j hj
  rw [hc, h.content_eq, List.getElem?_take_of_lt (by omega), ho j hj]

/-- `Alloc` and `Put` leave room for the structure, whatever the item was used for. -/
theorem allocPut_isResult (hb : b.room ≠ 0 → b.head = true) (hs : 0 < size) (fresh : Nat → BYTE) :
    ∃ b', allocPut b size fresh = .ok (b', 0) ∧ IsResult b' size ∧ b'.room = max b.room size := by
  obtain ⟨b₁, ha, h₁, hr, hroom⟩ := alloc_cleared hs hb fresh
  refine ⟨{ b₁ with tail := size, dataLen := size }, ?_, ⟨⟨h₁.head, ?_, hroom⟩, h₁.data, rfl⟩, hr⟩
  · rw [allocPut, ha]
    dsimp only
    rw [h₁.put hroom]
  · dsimp only
    rw [h₁.data, Nat.zero_add]

theorem allocPut_mem {b' : BufferItem} {p : Nat} {fresh : Nat → BYTE} (h : allocPut b size fresh = .ok (b', p)) :
    b'.mem = if b.room < size then newBytes fresh size else b.mem := by
  unfold allocPut at h
  split at h
  · cases h
  · rename_i b₁ ha
    split at h
    · cases h
    · rename_i r hput
      cases h
      obtain ⟨-, -, rfl⟩ := put_some hput
      exact (alloc_mem ha :)

/-- **The observer is given the bytes of the result**, and nothing behind them. -/
theorem resultCopy_of_content {cmd : AdbCmd} (hlen : cmd.biResult.content.length = cmd.biResult.dataSize)
    (hs : 0 < cmd.biResult.dataSize) (fresh : Nat → BYTE) :
    ∃ b, cmd.resultCopy fresh = .ok b ∧ IsResult b cmd.biResult.dataSize ∧ b.mem = cmd.biResult.content := by
  obtain ⟨b, hb, hr, hroom⟩ := allocPut_isResult (b := .new) (fun h => absurd rfl h) hs fresh
  have hmem : b.mem.length = cmd.biResult.dataSize := hroom.trans (Nat.max_eq_right (Nat.zero_le _))
  refine ⟨b.writes [(0, cmd.biResult.content)], ?_, hr.writes _, ?_⟩
  · rw [AdbCmd.resultCopy]
    rw [if_neg (Nat.ne_of_gt hs), hb, AdbCmd.getResult, if_neg (Nat.lt_irrefl _)]
    rfl
  · have hle : b.mem.length ≤ cmd.biResult.content.length := hmem.le.trans hlen.ge
    exact (mem_write_zero b _).trans (by rw [List.drop_eq_nil_of_le hle, List.append_nil])

theorem resultCopy_isResult {cmd : AdbCmd} (h : IsResult cmd.biResult size) (hs : 0 < size) (fresh : Nat → BYTE) :
    ∃ b, cmd.resultCopy fresh = .ok b ∧ IsResult b size ∧ b.mem = cmd.biResult.content := by
  obtain rfl : cmd.biResult.dataSize = size := h.size
  exact resultCopy_of_content h.good.length_content hs fresh

end

end DevMgr
