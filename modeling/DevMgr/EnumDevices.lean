import DevMgr.AdbCmd
import DevMgr.MiscUtils
import DevMgr.ProcessDevices
/-!
# EnumDevices — from the output of `adb devices` to the list of devices

`AdbCmdEnumDev::ProcessResult` records that it does not know the output as `hdr.dwResult`, in a result that lists no
device; `AdbDeviceMon::EnumDevices` hands the list to `ProcessDevices` whatever `hdr.dwResult` says.
-/
namespace DevMgr

open Machines MiscUtils BufferItem

def maxAdbDevCnt : Nat := 128

/-- `sizeof(RET_ENUM_DEVICES)`, and its part before `szDevId`. -/
def sizeofEnumHdr : Nat := 12
def sizeofRetEnumDevices : Nat := sizeofEnumHdr + maxDevIdLen

/-- A double word of a structure in memory. -/
def dwordField (mem : List BYTE) (offset : Nat) : Option DWORD :=
  match mem.drop offset with
  | b0 :: b1 :: b2 :: b3 :: _ => some (dwordAt b0 b1 b2 b3)
  | _ => none

theorem dwordField_take (mem : List BYTE) (offset : Nat) :
    dwordField mem offset = dwordField ((mem.drop offset).take 4) 0 := by
  unfold dwordField
  rw [List.drop_zero]
  rcases mem.drop offset with _ | ⟨b0, _ | ⟨b1, _ | ⟨b2, _ | ⟨b3, t⟩⟩⟩⟩ <;> rfl

/-- A double word is its four bytes. -/
theorem dwordField_congr {mem mem' : List BYTE} {offset : Nat}
    (h : ∀ k, k < 4 → mem[offset + k]? = mem'[offset + k]?) : dwordField mem offset = dwordField mem' offset := by
  rw [dwordField_take mem, dwordField_take mem']
  congr 1
  apply List.ext_getElem?
  intro k
  by_cases hk : k < 4
  · rw [List.getElem?_take_of_lt hk, List.getElem?_take_of_lt hk, List.getElem?_drop, List.getElem?_drop, h k hk]
  · rw [List.getElem?_take_eq_none (Nat.le_of_not_lt hk), List.getElem?_take_eq_none (Nat.le_of_not_lt hk)]

section
variable {b : BufferItem} {at_ : Nat} (h : at_ ≤ b.mem.length) (x : DWORD)
include h

theorem dwordField_write_self : dwordField (b.write at_ (dwordBytes x)).mem at_ = some x := by
  unfold dwordField
  rw [drop_write_self h]
  exact congrArg some (dwordAt_byteOf x)

theorem dwordField_write_of_sep {offset : Nat} (hs : offset + 4 ≤ at_ ∨ at_ + 4 ≤ offset) :
    dwordField (b.write at_ (dwordBytes x)).mem offset = dwordField b.mem offset := by
  apply dwordField_congr
  intro k hk
  have hlen : (dwordBytes x).length = 4 := rfl
  exact getElem?_write h _ (by omega)

end

/-- The double word that an allocation has at a place. -/
theorem dwordField_of_holds {b : BufferItem} {offset : Nat} {x : DWORD} (h : b.Holds offset (dwordBytes x)) :
    dwordField b.mem offset = some x := by
  have hx : dwordField (dwordBytes x) 0 = some x := congrArg some (dwordAt_byteOf x)
  rw [dwordField_take, ← hx]
  have hbytes : (b.mem.drop offset).take 4 = dwordBytes x := by
    apply List.ext_getElem?
    intro k
    by_cases hk : k < 4
    · rw [List.getElem?_take_of_lt hk, List.getElem?_drop, h k hk]
    · rw [List.getElem?_take_eq_none (Nat.le_of_not_lt hk)]
      exact (List.getElem?_eq_none (Nat.le_of_not_lt hk)).symm
  rw [hbytes]

/-- A result before its items: an allocation of `size` bytes whose data is `dwSize` (not yet stored), `dwResult` and a
count of 0. -/
structure ResultHdr (b : BufferItem) (size : Nat) (dwResult : DWORD) : Prop where
  head : b.head = true
  data : b.data = 0
  tail : b.tail = sizeofEnumHdr
  dataLen : b.dataLen = sizeofEnumHdr
  room : size ≤ b.room
  dwResult : b.Holds 4 (dwordBytes dwResult)
  count : b.Holds 8 (dwordBytes 0)

theorem alloc_resultHdr {biResult : BufferItem} (hb : biResult.room ≠ 0 → biResult.head = true) {size : Nat}
    (hsize : sizeofEnumHdr ≤ size) (fresh : Nat → BYTE) (dwResult : DWORD) :
    ∃ b₀ b₁ b, biResult.alloc size fresh = .ok b₀ ∧ b₀.put sizeofEnumHdr = .ok (b₁, 0) ∧
      (b₁.write 4 (dwordBytes dwResult)).write 8 (dwordBytes 0) = b ∧ ResultHdr b size dwResult := by
  obtain ⟨b₀, ha, h₀, -, hr⟩ := alloc_cleared (Nat.lt_of_lt_of_le (by decide) hsize) hb fresh
  have hput := h₀.put (hsize.trans hr)
  obtain ⟨b₁, hb₁⟩ : ∃ b₁, { b₀ with tail := sizeofEnumHdr, dataLen := sizeofEnumHdr } = b₁ := ⟨_, rfl⟩
  rw [hb₁] at hput
  have hr₁ : size ≤ b₁.room := by
    rw [← hb₁]
    exact hr
  have h4 : 4 ≤ b₁.mem.length := Nat.le_trans (Nat.le_trans (by decide) hsize) hr₁
  have hr₂ : size ≤ (b₁.write 4 (dwordBytes dwResult)).room := hr₁.trans (length_write_ge ..)
  have h8 : 8 ≤ (b₁.write 4 (dwordBytes dwResult)).mem.length := Nat.le_trans (Nat.le_trans (by decide) hsize) hr₂
  refine ⟨b₀, b₁, _, ha, hput, rfl, ?_, ?_, ?_, ?_, hr₂.trans (length_write_ge ..), ?_, ?_⟩
  · rw [← hb₁]
    exact h₀.head
  · rw [← hb₁]
    exact h₀.data
  · rw [← hb₁]
    rfl
  · rw [← hb₁]
    rfl
  · exact (holds_write h4 _).write h8 (.inl (Nat.le_refl 8))
  · exact holds_write h8 _

/-- `hdr.dwSize` and `hdr.dwResult` of the result. -/
def AdbCmd.dwSize (cmd : AdbCmd) : Option DWORD := dwordField (cmd.biResult.mem.drop cmd.biResult.data) 0
def AdbCmd.dwResult (cmd : AdbCmd) : Option DWORD := dwordField (cmd.biResult.mem.drop cmd.biResult.data) 4

namespace AdbCmdEnumDev

def banner : List BYTE := ascii "List of devices attached "

/-- What follows an id in its line: the pointer at the next line, and whether the line counts. -/
def scanState (p : List BYTE) : Option (List BYTE × Bool) :=
  match (parseUnquotedString p 9 maxDevIdLen).2 with
  | none => none
  | some p => match matchStringBeginning p [9] with
    | none => none
    | some p => match matchStringBeginning p (ascii "device") with
      | none => some ((skipCRLFs p true).1, false)
      | some p => some ((skipCRLFs p true).1, true)

theorem scanState_lt {p q : List BYTE} {counts : Bool} (h : scanState p = some (q, counts)) : q.length < p.length := by
  unfold scanState at h
  split at h
  · cases h
  · rename_i r hr
    have h1 := parseUnquotedString_length hr
    split at h
    · cases h
    · rename_i t ht
      have h2 := congrArg List.length (matchStringBeginning_some.1 ht)
      rw [List.length_append, List.length_singleton] at h2
      split at h
      · cases h
        have h3 := skipCRLFs_length t true
        omega
      · rename_i u hu
        cases h
        have h3 := skipCRLFs_length u true
        have h4 := congrArg List.length (matchStringBeginning_some.1 hu)
        rw [List.length_append] at h4
        omega

/-- The loop over the lines, with the ids in `szDevId` at `pEnumDevices`; every line takes an entry of the result. -/
def scanDevices (pEnumDevices : Nat) (biResult : BufferItem) (i : Nat) (p : List BYTE) :
    Except Assertion (BufferItem × Nat) :=
  if i < maxAdbDevCnt then
    let biResult := biResult.write (pEnumDevices + sizeofEnumHdr + maxDevIdLen * i)
      (parseUnquotedString p 9 maxDevIdLen).1
    match _h : scanState p with
    | none => .ok (biResult, i)
    | some (q, counts) => match biResult.put maxDevIdLen with
      | .error e => .error e
      | .ok (biResult, _) => scanDevices pEnumDevices biResult (if counts then i + 1 else i) q
  else .ok (biResult, i)
termination_by p.length
decreasing_by exact scanState_lt _h

def processResult (fresh : Nat → BYTE) (cmd : AdbCmd) : Except CmdFault AdbCmd :=
  match cmd.szOutput with
  | none => .error .overread
  | some szOutput => match cmd.biResult.alloc (sizeofRetEnumDevices + maxDevIdLen * (maxAdbDevCnt - 1)) fresh with
    | .error e => .error (.assertion e)
    | .ok b => match b.put sizeofEnumHdr with
      | .error e => .error (.assertion e)
      | .ok (b, p) =>
        let b := (b.write (p + 4) (dwordBytes (.ofNat errorNotSupported))).write (p + 8) (dwordBytes 0)
        match matchStringBeginning szOutput banner with
        | none => .ok { cmd with biResult := b.write p (dwordBytes (.ofNat b.dataSize)) }
        | some q => match scanDevices p b 0 (skipCRLFs q true).1 with
          | .error e => .error (.assertion e)
          | .ok (b, i) =>
            let b := (b.write (p + 8) (dwordBytes (.ofNat i))).write (p + 4) (dwordBytes (.ofNat errorSuccess))
            .ok { cmd with biResult := b.write p (dwordBytes (.ofNat b.dataSize)) }

/-- **The loop over the lines never moves the result**, and its allocation does not shrink. -/
theorem scanDevices_keeps {pEnumDevices : Nat} {b b' : BufferItem} {i i' : Nat} {p : List BYTE}
    (h : scanDevices pEnumDevices b i p = .ok (b', i')) : b.room ≤ b'.room ∧ b'.data = b.data := by
  fun_induction scanDevices pEnumDevices b i p with
  | case1 b i p hi written hn =>
    rw [← (Prod.mk.inj (Except.ok.inj h)).1]
    exact ⟨length_write_ge .., rfl⟩
  | case2 => cases h
  | case3 b i p hi written q counts hq b₁ p₁ hput ih =>
    obtain ⟨-, -, rfl⟩ := put_some hput
    obtain ⟨h1, h2⟩ := ih h
    exact ⟨(length_write_ge b _ _).trans h1, h2⟩
  | case4 =>
    cases h
    exact ⟨Nat.le_refl _, rfl⟩

/-- The store of `hdr.dwSize` leaves the other words. -/
theorem store_size {b : BufferItem} (dwSize : DWORD) {offset : Nat} (ho : 4 ≤ offset) :
    dwordField (b.write 0 (dwordBytes dwSize)).mem offset = dwordField b.mem offset :=
  dwordField_write_of_sep (Nat.zero_le _) dwSize (.inr ho)

theorem store_result_devNum {b : BufferItem} (hr : sizeofEnumHdr ≤ b.room) (dwResult dwDevNum : DWORD) :
    ∃ b', (b.write 4 (dwordBytes dwResult)).write 8 (dwordBytes dwDevNum) = b' ∧ sizeofEnumHdr ≤ b'.room ∧
      b'.data = b.data ∧ b'.dataLen = b.dataLen ∧ dwordField b'.mem 4 = some dwResult ∧
      dwordField b'.mem 8 = some dwDevNum := by
  have h4 : 4 ≤ b.mem.length := Nat.le_trans (by decide) hr
  have hr' : sizeofEnumHdr ≤ (b.write 4 (dwordBytes dwResult)).room := hr.trans (length_write_ge ..)
  have h8 : 8 ≤ (b.write 4 (dwordBytes dwResult)).mem.length := Nat.le_trans (by decide) hr'
  refine ⟨_, rfl, hr'.trans (length_write_ge ..), rfl, rfl, ?_, dwordField_write_self h8 _⟩
  rw [dwordField_write_of_sep h8 _ (.inl (Nat.le_refl 8)), dwordField_write_self h4]

/-- **The result says whether the output begins with the banner**; that of an output that does not lists no device. -/
theorem processResult_some {fresh : Nat → BYTE} {cmd cmd' : AdbCmd} (h : processResult fresh cmd = .ok cmd') :
    ∃ szOutput, cmd.szOutput = some szOutput ∧ cmd'.biResult.data = 0 ∧ sizeofEnumHdr ≤ cmd'.biResult.room ∧
      (banner <+: szOutput ∧ cmd'.dwResult = some (.ofNat errorSuccess) ∨
        ¬ banner <+: szOutput ∧ cmd'.dwResult = some (.ofNat errorNotSupported) ∧
          cmd'.biResult.dataSize = sizeofEnumHdr ∧ dwordField cmd'.biResult.mem 8 = some 0) := by
  unfold processResult at h
  split at h
  · cases h
  rename_i szOutput hszOutput
  refine ⟨szOutput, hszOutput, ?_⟩
  split at h
  · cases h
  rename_i b ha
  obtain ⟨hd, ht, hl, hr⟩ := alloc_some ha
  split at h
  · cases h
  rename_i b₁ p hp
  obtain ⟨-, rfl, rfl⟩ := put_some hp
  dsimp only at h
  rw [ht, Nat.zero_add, Nat.zero_add, Nat.zero_add, hd, hl, Nat.zero_add] at h
  obtain ⟨b₂, hb₂, hr₂, hd₂, hl₂, hres, hnum⟩ := store_result_devNum
    (b := { b with data := 0, tail := sizeofEnumHdr, dataLen := sizeofEnumHdr })
    (Nat.le_trans (show sizeofEnumHdr ≤ _ by decide) hr) (.ofNat errorNotSupported) 0
  rw [hb₂] at h
  split at h
  · rename_i hmatch
    cases h
    refine ⟨hd₂, hr₂.trans (length_write_ge ..), .inr ⟨matchStringBeginning_none.1 hmatch, ?_, hl₂, ?_⟩⟩
    · show dwordField ((b₂.write 0 _).mem.drop b₂.data) 4 = _
      rw [hd₂, List.drop_zero, store_size _ (Nat.le_refl 4), hres]
    · rw [store_size _ (by decide), hnum]
  · rename_i q hmatch
    split at h
    · cases h
    · rename_i b₃ i hs
      obtain ⟨hr₃, hd₃⟩ := scanDevices_keeps hs
      have hr₄ : sizeofEnumHdr ≤ (b₃.write 8 (dwordBytes (.ofNat i))).room :=
        (hr₂.trans hr₃).trans (length_write_ge ..)
      have h4 : 4 ≤ (b₃.write 8 (dwordBytes (.ofNat i))).mem.length := Nat.le_trans (by decide) hr₄
      cases h
      refine ⟨hd₃.trans hd₂, (hr₄.trans (length_write_ge ..)).trans (length_write_ge ..),
        .inl ⟨⟨q, (matchStringBeginning_some.1 hmatch).symm⟩, ?_⟩⟩
      show dwordField (List.drop b₃.data _) 4 = _
      rw [hd₃, hd₂, List.drop_zero, store_size _ (Nat.le_refl 4), dwordField_write_self h4]

/-- **An output without the banner has a result.** -/
theorem processResult_of_unmatched (cmd : AdbCmd) (hb : cmd.biResult.room ≠ 0 → cmd.biResult.head = true)
    {szOutput : List BYTE} (hs : cmd.szOutput = some szOutput) (hm : ¬ banner <+: szOutput) (fresh : Nat → BYTE) :
    ∃ cmd', processResult fresh cmd = .ok cmd' := by
  obtain ⟨b, ha, hclear, -, hr⟩ := alloc_cleared
    (show 0 < sizeofRetEnumDevices + maxDevIdLen * (maxAdbDevCnt - 1) by decide) hb fresh
  have hfit : sizeofEnumHdr ≤ b.room := Nat.le_trans (by decide) hr
  unfold processResult
  simp only [hs, ha, hclear.put hfit, matchStringBeginning_none.2 hm]
  exact ⟨_, rfl⟩

end AdbCmdEnumDev

/-- The command and the result of the monitor. -/
structure EnumMon where
  enumDevCmd : AdbCmd
  biResult : BufferItem
  deriving DecidableEq, Repr

def EnumMon.new : EnumMon := { enumDevCmd := { biOutput := .new, biResult := .new }, biResult := .new }

/-- Allocations have a `_head`. -/
structure EnumMon.Sound (m : EnumMon) : Prop where
  output : m.enumDevCmd.biOutput.room ≠ 0 → m.enumDevCmd.biOutput.head = true
  result : m.enumDevCmd.biResult.room ≠ 0 → m.enumDevCmd.biResult.head = true
  mon : m.biResult.room ≠ 0 → m.biResult.head = true

theorem EnumMon.sound_new : EnumMon.new.Sound :=
  ⟨fun h => absurd rfl h, fun h => absurd rfl h, fun h => absurd rfl h⟩

/-- What newly allocated bytes hold. -/
structure EnumFresh where
  output : Nat → Nat → BYTE
  result : Nat → BYTE
  mon : Nat → BYTE

namespace AdbDeviceMon

/-- The ids that `ProcessDevices` reads. -/
def devIds (mem : List BYTE) : Option (List (List BYTE)) :=
  match dwordField mem 8 with
  | none => none
  | some dwDevNum => (List.range dwDevNum.toNat).mapM fun i => cString (mem.drop (sizeofEnumHdr + maxDevIdLen * i))

/-- `EnumDevices` up to its call of `ProcessDevices`, and what it calls it with, if it does. -/
def enumDevices (m : EnumMon) (child : ChildProcess) (fresh : EnumFresh) :
    Except CmdFault (EnumMon × Option (List (List BYTE))) :=
  match m.enumDevCmd.execute (AdbCmdEnumDev.processResult fresh.result) errorSuccess child fresh.output with
  | .error e => .error e
  | .ok (cmd, dwRet) =>
    if dwRet ≠ errorSuccess then .ok ({ m with enumDevCmd := cmd }, none)
    else if cmd.biResult.dataSize < sizeofEnumHdr then .error .resultSize
    else match m.biResult.alloc cmd.biResult.dataSize fresh.mon with
      | .error e => .error (.assertion e)
      | .ok b => match b.put cmd.biResult.dataSize with
        | .error e => .error (.assertion e)
        | .ok (b, p) =>
          let b := b.write p cmd.biResult.content
          match devIds (b.mem.drop b.data) with
          | none => .error .overread
          | some szDevId => .ok ({ enumDevCmd := cmd, biResult := b }, some szDevId)

theorem devIds_nil {mem : List BYTE} (h : dwordField mem 8 = some 0) : devIds mem = some [] := by
  rw [devIds, h]
  rfl

/-- A result without devices is copied as one. -/
theorem devIds_copy {res b : BufferItem} (hd : res.data = 0) (hroom : sizeofEnumHdr ≤ res.room)
    (hsize : res.dataSize = sizeofEnumHdr) (hnum : dwordField res.mem 8 = some 0) :
    devIds ((b.write 0 res.content).mem.drop 0) = some [] := by
  have hlen : (res.mem.take sizeofEnumHdr).length = sizeofEnumHdr := List.length_take_of_le hroom
  have hcontent : res.content = res.mem.take sizeofEnumHdr := by
    rw [content, hd, List.drop_zero]
    exact congrArg (List.take · res.mem) hsize
  rw [drop_write_self (Nat.zero_le _), hcontent]
  apply devIds_nil
  rw [← hnum]
  apply dwordField_congr
  intro k hk
  have hlt : 8 + k < sizeofEnumHdr := Nat.add_lt_add_left hk 8
  rw [List.getElem?_append_left (hlen.symm ▸ hlt), List.getElem?_take_of_lt hlt]

/-- **An output that is not recognised is handed on as a list of no device.** -/
theorem enumDevices_unrecognised {m m' : EnumMon} {child : ChildProcess} {fresh : EnumFresh}
    {szDevId : Option (List (List BYTE))} (hc : child.createRet = errorSuccess)
    (h : enumDevices m child fresh = .ok (m', szDevId))
    (hr : m'.enumDevCmd.dwResult = some (.ofNat errorNotSupported)) : szDevId = some [] := by
  unfold enumDevices at h
  split at h
  · cases h
  rename_i cmd dwRet he
  obtain ⟨rfl, out, hp⟩ := AdbCmd.execute_some hc he
  obtain ⟨szOutput, -, hd, hroom, hres⟩ := AdbCmdEnumDev.processResult_some hp
  rw [if_neg (not_not_intro rfl)] at h
  split at h
  · cases h
  split at h
  · cases h
  rename_i b ha
  obtain ⟨hbd, hbt, -, -⟩ := alloc_some ha
  split at h
  · cases h
  rename_i b₁ p hput
  obtain ⟨-, rfl, rfl⟩ := put_some hput
  dsimp only at h
  split at h
  · cases h
  rename_i ids hids
  cases h
  rcases hres with ⟨-, hres⟩ | ⟨-, -, hsize, hnum⟩
  · rw [hres] at hr
    exact absurd hr (by decide)
  change devIds (List.drop b.data (write _ b.tail cmd.biResult.content).mem) = some ids at hids
  rw [hbd, hbt, devIds_copy hd hroom hsize hnum] at hids
  exact hids.symm

/-- The string that starts with `text` and has a zero behind it begins with nothing that `text` does not begin with. -/
theorem prefix_of_cString {text t szOutput m : List BYTE} (h : cString (text ++ 0 :: t) = some szOutput)
    (hm : m <+: szOutput) : m <+: text := by
  obtain ⟨hz, u, hu⟩ := cString_eq_some.1 h
  rcases List.prefix_or_prefix_of_prefix (show szOutput <+: text ++ 0 :: t from ⟨_, hu.symm⟩)
    (List.prefix_append text _) with hp | ⟨v, rfl⟩
  · exact hm.trans hp
  · cases v with
    | nil => rwa [List.append_nil] at hm
    | cons c v =>
      rw [List.append_assoc, List.append_cancel_left_eq] at hu
      exact absurd (List.mem_append_right _ (List.mem_cons.2 (.inl (List.cons.inj hu).1))) hz

theorem enumDevices_copies {m : EnumMon} {child : ChildProcess} {fresh : EnumFresh} {cmd : AdbCmd}
    (hm : m.biResult.room ≠ 0 → m.biResult.head = true)
    (hexec : m.enumDevCmd.execute (AdbCmdEnumDev.processResult fresh.result) errorSuccess child fresh.output =
      .ok (cmd, errorSuccess)) (hd : cmd.biResult.data = 0) (hroom : sizeofEnumHdr ≤ cmd.biResult.room)
    (hsize : cmd.biResult.dataSize = sizeofEnumHdr) (hnum : dwordField cmd.biResult.mem 8 = some 0) :
    ∃ b, enumDevices m child fresh = .ok (⟨cmd, b⟩, some []) := by
  obtain ⟨b, ha, hclear, -, hr⟩ := alloc_cleared (show 0 < sizeofEnumHdr by decide) hm fresh.mon
  rw [enumDevices, hexec]
  dsimp only
  rw [if_neg (not_not_intro rfl), hsize, if_neg (Nat.lt_irrefl _), ha]
  dsimp only
  rw [hclear.put hr]
  dsimp only
  obtain ⟨copied, hcopied⟩ : ∃ copied, write { b with tail := sizeofEnumHdr, dataLen := sizeofEnumHdr } 0
      cmd.biResult.content = copied := ⟨_, rfl⟩
  have hids : devIds (copied.mem.drop copied.data) = some [] := by
    rw [← hcopied]
    change devIds (List.drop b.data (write _ 0 cmd.biResult.content).mem) = some []
    rw [hclear.data]
    exact devIds_copy hd hroom hsize hnum
  rw [hcopied, hids]
  exact ⟨copied, rfl⟩

/-- **An output without the banner is handed on as a list of no device.** -/
theorem enumDevices_of_unmatched {m : EnumMon} (hm : m.Sound) {reads : List (List BYTE)} (hne : reads ≠ [])
    (hlen : ∀ buf ∈ reads, buf.length < AdbCmd.sizeofBuf)
    (hfew : reads.flatten.length + AdbCmd.sizeofBuf < 2 ^ 32) (hbanner : ¬ AdbCmdEnumDev.banner <+: reads.flatten)
    (fresh : EnumFresh) : ∃ m', enumDevices m ⟨errorSuccess, reads⟩ fresh = .ok (m', some []) ∧
      m'.enumDevCmd.dwResult = some (.ofNat errorNotSupported) := by
  obtain ⟨out, t, hout, htext, -⟩ := AdbCmd.processChildOutput_spec hm.output fresh.output hne hlen
    (AdbCmd.expandsFit_of_length (by rw [Nat.zero_add]; exact hfew))
  obtain ⟨szOutput, hs⟩ : ∃ szOutput, cString (reads.flatten ++ 0 :: t) = some szOutput :=
    ⟨_, if_pos (List.mem_append_right _ List.mem_cons_self)⟩
  have hs' : AdbCmd.szOutput ⟨out, m.enumDevCmd.biResult⟩ = some szOutput := by
    rw [AdbCmd.szOutput, htext, hs]
  have hmatch : ¬ AdbCmdEnumDev.banner <+: szOutput := fun h => hbanner (prefix_of_cString hs h)
  obtain ⟨cmd, hp⟩ := AdbCmdEnumDev.processResult_of_unmatched ⟨out, m.enumDevCmd.biResult⟩ hm.result hs' hmatch
    fresh.result
  obtain ⟨_, hs₂, hd, hroom, hres⟩ := AdbCmdEnumDev.processResult_some hp
  rw [hs'] at hs₂
  cases hs₂
  rcases hres with ⟨hb, -⟩ | ⟨-, hres, hsize, hnum⟩
  · exact absurd hb hmatch
  have hexec := AdbCmd.execute_of_output (show (⟨errorSuccess, reads⟩ : ChildProcess).createRet = _ from rfl) hout hp
  obtain ⟨b, he⟩ := enumDevices_copies hm.mon hexec hd hroom hsize hnum
  exact ⟨_, he, hres⟩

end AdbDeviceMon

namespace AdbMonState

variable {s s' t : AdbMonState (List BYTE)} {a : AdbMonStep (List BYTE)}

/-- A call of `EnumDevices`, with the steps of the `ProcessDevices` that it calls. -/
inductive Enumerates (m : EnumMon) (child : ChildProcess) (fresh : EnumFresh) (s : AdbMonState (List BYTE)) :
    EnumMon → AdbMonState (List BYTE) → Prop
  | failed {m' : EnumMon} (h : AdbDeviceMon.enumDevices m child fresh = .ok (m', none)) :
      Enumerates m child fresh s m' s
  | processed {m' : EnumMon} {szDevId : List (List BYTE)} {t s' : AdbMonState (List BYTE)}
      {as : List (AdbMonStep (List BYTE))} (h : AdbDeviceMon.enumDevices m child fresh = .ok (m', some szDevId))
      (hs : (machine (List BYTE)).step s (.processDevices szDevId) = some t)
      (hr : (machine (List BYTE)).run t as = some s') (hone : ∀ szDevId, .processDevices szDevId ∉ as)
      (hpc : s'.pc = .idle) : Enumerates m child fresh s m' s'

theorem Acts.in_call (ha : Acts s a s') (hn : ∀ szDevId, a ≠ .processDevices szDevId) :
    s'.szDevId = s.szDevId ∧ s'.old = s.old := by
  cases ha with
  | processDevices szDevId hpc => exact absurd rfl (hn szDevId)
  | scanNew hpc hf =>
    unfold attach
    dsimp only
    split
    · exact ⟨rfl, rfl⟩
    · exact ⟨rfl, rfl⟩
  | popFront hpc =>
    unfold detach
    dsimp only
    split
    · exact ⟨rfl, rfl⟩
    · exact ⟨rfl, rfl⟩
  | _ => exact ⟨rfl, rfl⟩

/-- What a call of `ProcessDevices` was given stays what it was given. -/
theorem run_in_call : ∀ {as : List (AdbMonStep (List BYTE))} {s s' : AdbMonState (List BYTE)},
    (machine (List BYTE)).run s as = some s' → (∀ szDevId, .processDevices szDevId ∉ as) →
    s'.szDevId = s.szDevId ∧ s'.old = s.old
  | [], s, s', hr, _ => by
    cases hr
    exact ⟨rfl, rfl⟩
  | a :: as, s, s', hr, hone => by
    rw [Machine.run_cons] at hr
    obtain ⟨t, ht, hr⟩ := Option.bind_eq_some_iff.1 hr
    obtain ⟨h1, h2⟩ := run_in_call hr fun szDevId hm => hone szDevId (List.mem_cons_of_mem _ hm)
    obtain ⟨u, ha, rfl⟩ := step_some ht
    obtain ⟨h3, h4⟩ := ha.in_call fun szDevId he => hone szDevId (he ▸ List.mem_cons_self)
    exact ⟨h1.trans h3, h2.trans h4⟩

/-- Both lists are as they were, and no device was reported. -/
def Unchanged (s s' : AdbMonState (List BYTE)) : Prop :=
  s'.deviceList = s.deviceList ∧ s'.center.deviceList = s.center.deviceList ∧ s'.attached = [] ∧ s'.detached = []

/-- **An enumeration that is not recognised changes nothing only where nothing is known**: it leaves the lists as they
were exactly when `_DeviceList` was empty. -/
theorem unrecognised_unchanged {m m' : EnumMon} {child : ChildProcess} {fresh : EnumFresh}
    (hs : (machine (List BYTE)).Reach s) (hpc : s.pc = .idle) (hc : child.createRet = errorSuccess)
    (h : Enumerates m child fresh s m' s') (hr : m'.enumDevCmd.dwResult = some (.ofNat errorNotSupported)) :
    s.Unchanged s' ↔ s.deviceList = [] := by
  cases h with
  | failed h => cases AdbDeviceMon.enumDevices_unrecognised hc h hr
  | processed h ht hrun hone hpc' =>
    cases AdbDeviceMon.enumDevices_unrecognised hc h hr
    have hrec := (reconciling_reach ((hs.step ht).run hrun)).reconciled hpc'
    obtain ⟨hids, hold⟩ := run_in_call hrun hone
    obtain ⟨u, ha, rfl⟩ := step_some ht
    cases ha
    have hnil : s'.deviceList = [] := by
      have hi := hrec.ids
      rw [hids] at hi
      exact List.map_eq_nil_iff.1 hi
    constructor
    · rintro ⟨hl, -⟩
      rw [← hl, hnil]
    · intro he
      have hcenter := ((reconciling_reach hs).reconciled hpc).center.2
      have hcenter' := hrec.center.2
      rw [he] at hcenter
      rw [hnil] at hcenter'
      refine ⟨by rw [hnil, he], by rw [hcenter.eq_nil, hcenter'.eq_nil], ?_, ?_⟩
      · rw [← hrec.fresh.1, hnil]
        rfl
      · apply List.eq_nil_iff_forall_not_mem.2
        intro d hd
        have hm := ((hrec.dropped.2 d).1 hd).1
        rw [hold] at hm
        change d ∈ s.deviceList at hm
        rw [he] at hm
        cases hm

/-- A child that starts the server: what it reports of that stands before the list. -/
def daemonChild : ChildProcess where
  createRet := errorSuccess
  reads := [ascii "* daemon not running. starting it now on port 5037 *\n", ascii "* daemon started successfully *\n",
    ascii "List of devices attached \nAB12\tdevice\n\n"]

def zeroFresh : EnumFresh := { output := fun _ _ => 0, result := fun _ => 0, mon := fun _ => 0 }

theorem enumDevices_daemonChild : ∃ m', AdbDeviceMon.enumDevices EnumMon.new daemonChild zeroFresh = .ok (m', some []) ∧
    m'.enumDevCmd.dwResult = some (.ofNat errorNotSupported) := by
  apply AdbDeviceMon.enumDevices_of_unmatched
  · exact EnumMon.sound_new
  · exact List.cons_ne_nil _ _
  · decide
  · decide +kernel
  · decide

theorem unrecognised_unchanged_noDevice : ∃ m' s', Enumerates EnumMon.new daemonChild zeroFresh start m' s' ∧
    (start : AdbMonState (List BYTE)).Unchanged s' := by
  obtain ⟨m', hm, hr⟩ := enumDevices_daemonChild
  obtain ⟨t, ht, h⟩ := Option.bind_eq_some_iff.1
    (show (((machine (List BYTE)).step start (.processDevices [])).bind fun t =>
      ((machine (List BYTE)).run t [.popFront]).map AdbMonState.pc) = some .idle by decide)
  obtain ⟨s', hs', hpc⟩ := Option.map_eq_some_iff.1 h
  have he : Enumerates EnumMon.new daemonChild zeroFresh start m' s' :=
    .processed hm ht hs' (fun szDevId hmem => by cases List.mem_singleton.1 hmem) hpc
  exact ⟨m', s', he, (unrecognised_unchanged (.init rfl) rfl rfl he hr).2 rfl⟩

/-- **The device that is detached**: it is in the list that the child prints. -/
theorem known_device_detached : ∃ s m' s', (machine (List BYTE)).run start
      [.processDevices [ascii "AB12"], .scan, .addRef, .onAttached, .popFront] = some s ∧ s.pc = .idle ∧
    s.deviceList = [⟨0, ascii "AB12"⟩] ∧ Enumerates EnumMon.new daemonChild zeroFresh s m' s' ∧
    m'.enumDevCmd.dwResult = some (.ofNat errorNotSupported) ∧ s'.detached = [⟨0, ascii "AB12"⟩] ∧
    ¬ s.Unchanged s' := by
  obtain ⟨m', hm, hr⟩ := enumDevices_daemonChild
  obtain ⟨s, hs, h⟩ := Option.bind_eq_some_iff.1
    (show (((machine (List BYTE)).run start
        [.processDevices [ascii "AB12"], .scan, .addRef, .onAttached, .popFront]).bind fun s =>
      ((machine (List BYTE)).step s (.processDevices [])).bind fun t =>
      ((machine (List BYTE)).run t [.popFront, .centerRelease, .onDetached, .drop, .popFront]).map fun s' =>
        (s.pc, s.deviceList, s'.pc, s'.detached)) =
      some (.idle, [⟨0, ascii "AB12"⟩], .idle, [⟨0, ascii "AB12"⟩]) by decide)
  obtain ⟨t, ht, h⟩ := Option.bind_eq_some_iff.1 h
  obtain ⟨s', hs', h⟩ := Option.map_eq_some_iff.1 h
  obtain ⟨hpc, h⟩ := Prod.mk.inj h
  obtain ⟨hl, h⟩ := Prod.mk.inj h
  obtain ⟨hpc', hd⟩ := Prod.mk.inj h
  refine ⟨s, m', s', hs, hpc, hl, .processed hm ht hs' (fun szDevId hmem => ?_) hpc', hr, hd, ?_⟩
  · simp at hmem
  · rintro ⟨-, -, -, hu⟩
    rw [hd] at hu
    cases hu

end AdbMonState

end DevMgr
