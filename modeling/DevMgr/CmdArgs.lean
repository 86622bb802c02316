import DevMgr.GetApkList
import DevMgr.CmdTableMod
/-!
# CmdArgs — the arguments of a command, from the column of `op_requests` to the command object

`CmdTableMod::ConvertArgs` writes a structure that `SmartDeviceAdb::CreateCmd` finds again by a cast.  `szArgs` is what
stands from that pointer on; the bytes of it that a conversion has read are returned with its result.
-/
namespace DevMgr

open MiscUtils BufferItem
open AdbCmdGetApkList (cString_append)

/-- The directories of `ConfigCenter`. -/
structure ConfigCenter where
  appDir : List BYTE
  hostFileDir : List BYTE
  devFileDir : List BYTE
  appDir_ok : 0 ∉ appDir
  hostFileDir_ok : 0 ∉ hostFileDir
  devFileDir_ok : 0 ∉ devFileDir

def sizeofArgsInstallApp : Nat := 5
def sizeofArgsPushPullFile : Nat := maxPath + maxPath + maxPath
def sizeofArgsShowLabel : Nat := 5
def sizeofArgsDelFile : Nat := maxPath

/-- `atoi`: blanks, a sign and digits, kept within a `long` of 32 bits; and how many bytes it looks at. -/
def atoi (mem : List BYTE) : DWORD × Nat :=
  let blanks := (mem.takeWhile fun c => c = 32 || 9 ≤ c && c ≤ 13).length
  let s := mem.drop blanks
  let sign := if s.head? = some 43 ∨ s.head? = some 45 then 1 else 0
  let digits := (s.drop sign).takeWhile isDigit
  let value := digits.foldl (fun v c => v * 10 + (c.toNat - 48)) 0
  (if s.head? = some 45 then 0 - UInt32.ofNat (min value (2 ^ 31)) else .ofNat (min value (2 ^ 31 - 1)),
    blanks + sign + digits.length + 1)

namespace CmdArgs

/-- `Alloc(size)` and `Put(size)`. -/
def allocPut (biArgs : BufferItem) (size : Nat) (fresh : Nat → BYTE) : Except CmdFault (BufferItem × Nat) :=
  match biArgs.alloc size fresh with
  | .error e => .error (.assertion e)
  | .ok b => match b.put size with
    | .error e => .error (.assertion e)
    | .ok r => .ok r

/-- Fields of the structure at the pointer that `Put` returned, stored one after the other. -/
def storeAll (b : BufferItem) : List (Nat × List BYTE) → Except CmdFault BufferItem
  | [] => .ok b
  | (place, bs) :: stores =>
    if place + bs.length ≤ b.room then storeAll (b.write place bs) stores else .error .overrun

/-- `n` bytes of `szArgs` are read from `o` on: where the read begins and ends. -/
def look (szArgs : List BYTE) (o n : Nat) : Except CmdFault (Nat × Nat) :=
  if o + n ≤ szArgs.length then .ok (o, o + n) else .error .overread

/-- The string at the beginning, read with its zero. -/
def lookString (szArgs : List BYTE) : Except CmdFault (List BYTE × (Nat × Nat)) := do
  let s := szArgs.takeWhile (· ≠ 0)
  .ok (s, ← look szArgs 0 (s.length + 1))

/-- What the call leaves in `biArgs` and returns, and what it reads of `szArgs`. -/
structure Converted where
  biArgs : BufferItem
  dwRet : Nat
  reads : List (Nat × Nat)
  deriving DecidableEq, Repr

/-- The structure of an installation or an uninstallation. -/
def putSized (biArgs : BufferItem) (dwLen : DWORD) (str : List BYTE) (fresh : Nat → BYTE) :
    Except CmdFault BufferItem := do
  let dwSize : DWORD := .ofNat (sizeofArgsInstallApp - 1) + dwLen
  let (b, p) ← allocPut biArgs dwSize.toNat fresh
  storeAll b [(p, dwordBytes dwLen), (p + 4, str)]

def convertArgs (cfg : ConfigCenter) (fresh : Nat → BYTE) (cmdCode : Option DevCmdCode) (szArgs : List BYTE)
    (biArgs : BufferItem) : Except CmdFault Converted :=
  match cmdCode with
  | some .installApp | some .installInfoview => do
    let (s, r) ← lookString szArgs
    let dwLen : DWORD := .ofNat (cfg.appDir.length + s.length + 1)
    -- `_snprintf` with a size of 0 stores nothing
    let path := if dwLen = 0 then [] else snprintf (cfg.appDir ++ s) dwLen.toNat
    let b ← putSized biArgs dwLen path fresh
    .ok { biArgs := b, dwRet := errorSuccess, reads := [r, r] }
  | some .uninstallApp => do
    let (s, r) ← lookString szArgs
    let b ← putSized biArgs (.ofNat (s.length + 1)) (s ++ [0]) fresh
    .ok { biArgs := b, dwRet := errorSuccess, reads := [r, r] }
  | some .pushFile | some .pullFile => do
    let (b, place) ← allocPut biArgs sizeofArgsPushPullFile fresh
    let n := (szArgs.takeWhile fun c => c ≠ 44 && c ≠ 0).length
    let r₀ ← look szArgs 0 (n + 1)
    -- the comma becomes the zero of the host's name
    let (szArgs, p) := if szArgs[n]? = some 44 then (szArgs.set n 0, n + 1) else (szArgs, 0)
    let (s, r₁) ← lookString szArgs
    let r₂ ← look szArgs p (min maxPath (((szArgs.drop p).takeWhile (· ≠ 0)).length + 1))
    let b ← storeAll b [(place, snprintf (cfg.hostFileDir ++ s) maxPath),
      (place + maxPath, strncpy cfg.devFileDir maxPath), (place + maxPath + maxPath, strncpy (szArgs.drop p) maxPath)]
    .ok { biArgs := b, dwRet := errorSuccess, reads := [r₀, r₁, r₂] }
  | some .labelShow => do
    let (b, p) ← allocPut biArgs sizeofArgsShowLabel fresh
    let r₀ ← look szArgs 0 1
    let dwNum := atoi (szArgs.drop 1)
    let r₁ ← look szArgs 1 dwNum.2
    let b ← storeAll b [(p, [if szArgs.head? = some 70 then 1 else 0]), (p + 1, dwordBytes dwNum.1)]
    .ok { biArgs := b, dwRet := errorSuccess, reads := [r₀, r₁] }
  | some .delFile => do
    let (b, p) ← allocPut biArgs sizeofArgsDelFile fresh
    let (s, r) ← lookString szArgs
    let b ← storeAll b [(p, snprintf (cfg.devFileDir ++ s) maxPath)]
    .ok { biArgs := b, dwRet := errorSuccess, reads := [r] }
  | _ => .ok { biArgs, dwRet := errorNotSupported, reads := [] }

end CmdArgs

/-- The command objects, with what they are constructed from besides the device's id. -/
inductive Command where
  | installApk (szApkPath : List BYTE)
  | uninstallApk (szApkName : List BYTE)
  | pushPullFile (szFilePathH szPathD szFileD : List BYTE) (bPush : Bool)
  | startService (szArgs : List BYTE)
  | getSysInfo (dwMask : DWORD)
  | getBattInfo
  | getDiskInfo
  | getApkList (szIconDir : List BYTE)
  | screenCap (szFileName : List BYTE)
  | delFile (szFileName : List BYTE)
  deriving DecidableEq, Repr

namespace SmartDeviceAdb

/-- A string of the structure. -/
def argString (pbiArgs : BufferItem) (offset : Nat) : Except CmdFault (List BYTE) :=
  match cString (pbiArgs.mem.drop (pbiArgs.data + offset)) with
  | none => .error .overread
  | some s => .ok s

def argDword (pbiArgs : BufferItem) (offset : Nat) : Except CmdFault DWORD :=
  match dwordField pbiArgs.mem (pbiArgs.data + offset) with
  | none => .error .overread
  | some x => .ok x

/-- `"--ei FAST %d --ei NUM %u"` in `buf`. -/
def showLabelArgs (bFastCharging : BYTE) (dwNum : DWORD) : List BYTE :=
  (ascii "--ei FAST " ++ decimal bFastCharging.toNat ++ ascii " --ei NUM " ++ decimal dwNum.toNat).take 99

def createCmd (cmdCode : DevCmdCode) (pbiArgs : BufferItem) : Except CmdFault Command :=
  match cmdCode with
  | .installApp | .installInfoview => return .installApk (← argString pbiArgs 4)
  | .uninstallApp => return .uninstallApk (← argString pbiArgs 4)
  | .pushFile | .pullFile => do
    let szPathH ← argString pbiArgs 0
    let szPathD ← argString pbiArgs maxPath
    let szFileD ← argString pbiArgs (maxPath + maxPath)
    return .pushPullFile szPathH szPathD szFileD (cmdCode = .pushFile)
  | .labelShow => match pbiArgs.mem[pbiArgs.data]? with
    | none => .error .overread
    | some bFastCharging => return .startService (showLabelArgs bFastCharging (← argDword pbiArgs 1))
  | .getSysinfo => return .getSysInfo (← argDword pbiArgs 0)
  | .getBattinfo => .ok .getBattInfo
  | .getDiskinfo => .ok .getDiskInfo
  | .getApplist => return .getApkList (← argString pbiArgs 0)
  | .screenCap => return .screenCap (← argString pbiArgs 0)
  | .delFile => return .delFile (← argString pbiArgs 0)
  | .findMe => .ok (.startService (ascii "--ei SOUND 1 --ei VIBRATOR 1"))

end SmartDeviceAdb

namespace CmdArgs

/-- The size of the structure that `CreateCmd` casts to, and the places and sizes of its strings. -/
def sizeofArgs (cmdCode : DevCmdCode) (mem : List BYTE) : Nat :=
  match cmdCode with
  | .installApp | .installInfoview | .uninstallApp => match dwordField mem 0 with
    | none => 0
    | some dwSize => 4 + dwSize.toNat
  | .pushFile | .pullFile => sizeofArgsPushPullFile
  | .labelShow => sizeofArgsShowLabel
  | .delFile => sizeofArgsDelFile
  | _ => 0

def stringFields (cmdCode : DevCmdCode) (mem : List BYTE) : List (Nat × Nat) :=
  match cmdCode with
  | .installApp | .installInfoview | .uninstallApp => [(4, sizeofArgs cmdCode mem - 4)]
  | .pushFile | .pullFile => [(0, maxPath), (maxPath, maxPath), (maxPath + maxPath, maxPath)]
  | .delFile => [(0, maxPath)]
  | _ => []

/-- The text in front of the first comma, and the text behind it or the whole. -/
def hostFile (s : List BYTE) : List BYTE := s.takeWhile (· ≠ 44)
def deviceFile (s : List BYTE) : List BYTE :=
  match s.dropWhile (· ≠ 44) with
  | [] => s
  | _ :: p => p

/-- The structure that a successful call leaves, for the one that reads it. -/
structure Fills (cfg : ConfigCenter) (cmdCode : DevCmdCode) (s : List BYTE) (b : BufferItem) : Prop where
  size : b.dataSize = sizeofArgs cmdCode (b.mem.drop b.data)
  strings : ∀ f ∈ stringFields cmdCode (b.mem.drop b.data), 0 ∈ ((b.mem.drop b.data).drop f.1).take f.2
  paths : cmdCode = .pushFile ∨ cmdCode = .pullFile → ∃ szPathD, SmartDeviceAdb.createCmd cmdCode b =
    .ok (.pushPullFile ((cfg.hostFileDir ++ hostFile s).take (maxPath - 1)) szPathD ((deviceFile s).take (maxPath - 1))
      (cmdCode = .pushFile))

/-- What a conversion of `s` is to be: no byte behind the zero is read, and the code is refused with `biArgs` empty or
the structure is filled. -/
structure Converted.Right (r : Converted) (cfg : ConfigCenter) (cmdCode : Option DevCmdCode) (s : List BYTE) :
    Prop where
  reads : ∀ x ∈ r.reads, x.2 ≤ s.length + 1
  outcome : r.dwRet = errorNotSupported ∧ r.biArgs = .new ∨
    ∃ c, cmdCode = some c ∧ r.dwRet = errorSuccess ∧ Fills cfg c s r.biArgs

/-- The call on `s`, behind whose zero `t` follows. -/
def Agrees (cfg : ConfigCenter) (fresh : Nat → BYTE) (cmdCode : Option DevCmdCode) (s t : List BYTE) : Prop :=
  ∃ r, convertArgs cfg fresh cmdCode (s ++ 0 :: t) .new = .ok r ∧ r.Right cfg cmdCode s

/-- A length that is not 0 as a `DWORD`, nor with the size in front of it. -/
def LengthFits (n : Nat) : Prop := 0 < n % 2 ^ 32 ∧ 4 + n % 2 ^ 32 < 2 ^ 32

/-- The arguments that are converted: a number behind the letter of a label, file names that leave room for their
zero, and lengths that a `DWORD` holds. -/
def Convertible (cfg : ConfigCenter) (s : List BYTE) : Option DevCmdCode → Prop
  | some .installApp | some .installInfoview => LengthFits (cfg.appDir.length + s.length + 1)
  | some .uninstallApp => 4 + (s.length + 1) < 2 ^ 32
  | some .pushFile | some .pullFile => cfg.devFileDir.length < maxPath ∧ (deviceFile s).length < maxPath
  | some .labelShow => s ≠ []
  | _ => True

/-! ## What is read -/

theorem look_ok {szArgs : List BYTE} {o n : Nat} (h : o + n ≤ szArgs.length) : look szArgs o n = .ok (o, o + n) :=
  if_pos h

section
variable {s : List BYTE} (h0 : 0 ∉ s) (t : List BYTE)
include h0

theorem lookString_zero : lookString (s ++ 0 :: t) = .ok (s, (0, s.length + 1)) := by
  have hlen : 0 + (s.length + 1) ≤ (s ++ 0 :: t).length := by
    rw [List.length_append, List.length_cons]
    omega
  unfold lookString
  dsimp only
  rw [takeWhile_ne_zero h0, look_ok hlen, Nat.zero_add]
  rfl

/-- `strchr` stops at the comma or at the zero. -/
theorem takeWhile_comma : (s ++ 0 :: t).takeWhile (fun c => c ≠ 44 && c ≠ 0) = hostFile s := by
  induction s with
  | nil => rfl
  | cons c s ih =>
    have hc : c ≠ 0 := fun h => h0 (h ▸ List.mem_cons_self)
    have hs : 0 ∉ s := fun h => h0 (List.mem_cons_of_mem _ h)
    have ih' := ih hs
    unfold hostFile at ih' ⊢
    rw [List.cons_append]
    by_cases h44 : c = 44
    · rw [List.takeWhile_cons_of_neg (by simp [h44]), List.takeWhile_cons_of_neg (by simp [h44])]
    · rw [List.takeWhile_cons_of_pos (by simp [h44, hc]), List.takeWhile_cons_of_pos (by simp [h44]), ih']

end

/-- A text without a comma is both names, one with a comma is cut at it. -/
theorem comma_cases (s : List BYTE) :
    (hostFile s = s ∧ deviceFile s = s) ∨ s = hostFile s ++ 44 :: deviceFile s := by
  have hsplit := List.takeWhile_append_dropWhile (p := (· ≠ 44)) (l := s)
  unfold hostFile deviceFile
  split
  · rename_i hd
    rw [hd, List.append_nil] at hsplit
    exact .inl ⟨hsplit, rfl⟩
  · rename_i c p hd
    have hc : c = 44 := by
      have hhead := List.head?_dropWhile_not (· ≠ (44 : BYTE)) s
      rw [hd] at hhead
      simpa using hhead
    rw [hd, hc] at hsplit
    exact .inr hsplit.symm

/-- The bytes that `atoi` looks at end with the zero. -/
theorem atoi_within (u t : List BYTE) : (atoi (u ++ 0 :: t)).2 ≤ u.length + 1 := by
  have hstop : ∀ (p : BYTE → Bool) (v : List BYTE), p 0 = false → (v ++ 0 :: t).takeWhile p = v.takeWhile p := by
    intro p v hp
    induction v with
    | nil => exact List.takeWhile_cons_of_neg (by simp [hp])
    | cons c v ih =>
      rw [List.cons_append, List.takeWhile_cons, List.takeWhile_cons, ih]
  have hdrop : ∀ (v : List BYTE) (k : Nat), k ≤ v.length → (v ++ 0 :: t).drop k = v.drop k ++ 0 :: t := by
    intro v k hk
    exact List.drop_append_of_le_length hk
  unfold atoi
  dsimp only
  rw [hstop _ u (by decide)]
  obtain ⟨k, hk⟩ : ∃ k, (u.takeWhile fun c => decide (c = 32) || decide (9 ≤ c) && decide (c ≤ 13)).length = k :=
    ⟨_, rfl⟩
  have hku : k ≤ u.length := hk ▸ (List.takeWhile_prefix _).length_le
  rw [hk, hdrop u k hku]
  have hsign : (if (u.drop k ++ 0 :: t).head? = some 43 ∨ (u.drop k ++ 0 :: t).head? = some 45 then 1 else 0) ≤
      (u.drop k).length := by
    cases u.drop k with
    | nil => exact Nat.le_of_eq (if_neg (by simp))
    | cons c v =>
      rw [List.length_cons]
      split
      · omega
      · omega
  obtain ⟨j, hj⟩ : ∃ j, (if (u.drop k ++ 0 :: t).head? = some 43 ∨ (u.drop k ++ 0 :: t).head? = some 45 then 1
    else 0) = j := ⟨_, rfl⟩
  rw [hj] at hsign
  rw [hj, hdrop _ j hsign, hstop _ _ (by decide)]
  have hdig := (List.takeWhile_prefix (l := (u.drop k).drop j) isDigit).length_le
  rw [List.length_drop] at hdig hsign
  rw [List.length_drop] at hdig
  omega

/-! ## What is left in the buffer -/

/-- Stores inside the allocation are all made. -/
theorem storeAll_writes {b : BufferItem} {stores : List (Nat × List BYTE)}
    (hin : ∀ st ∈ stores, st.1 + st.2.length ≤ b.room) :
    storeAll b stores = .ok (b.writes stores) ∧ (b.writes stores).room = b.room := by
  induction stores generalizing b with
  | nil => exact ⟨rfl, rfl⟩
  | cons st stores ih =>
    have hst := hin st List.mem_cons_self
    have hroom : (b.write st.1 st.2).room = b.room := length_write hst
    obtain ⟨hs, hr⟩ := ih (b := b.write st.1 st.2) fun x hx => by
      rw [hroom]
      exact hin x (List.mem_cons_of_mem _ hx)
    refine ⟨?_, hr.trans hroom⟩
    rw [storeAll, if_pos hst]
    exact hs

/-- One that passes its end is noticed, whatever is stored before it. -/
theorem storeAll_overrun {b : BufferItem} {stores : List (Nat × List BYTE)} {st : Nat × List BYTE} (hst : st ∈ stores)
    (hover : b.room < st.1 + st.2.length) : storeAll b stores = .error .overrun := by
  induction stores generalizing b with
  | nil => cases hst
  | cons st' stores ih =>
    rw [storeAll]
    split
    · rename_i hfits
      have hroom : (b.write st'.1 st'.2).room = b.room := length_write hfits
      rcases List.mem_cons.1 hst with rfl | hmem
      · omega
      · exact ih hmem (hroom ▸ hover)
    · rfl

/-- A new buffer with room for `size` bytes, all of them put. -/
theorem allocPut_new {size : Nat} (hs : 0 < size) (fresh : Nat → BYTE) : ∃ b, allocPut .new size fresh = .ok (b, 0) ∧
    b.data = 0 ∧ b.dataLen = size ∧ b.room = size := by
  obtain ⟨b, ha, hb, hmax, hroom⟩ := alloc_cleared (b := .new) hs (fun h => absurd rfl h) fresh
  refine ⟨{ b with tail := size, dataLen := size }, ?_, hb.data, rfl, ?_⟩
  · rw [allocPut, ha]
    dsimp only
    rw [hb.put hroom]
  · exact hmax.trans (Nat.max_eq_right (Nat.zero_le _))

/-- An allocation and the stores into it. -/
theorem allocPut_writes (size : Nat) (hs : 0 < size) (fresh : Nat → BYTE) (stores : List (Nat × List BYTE))
    (hin : ∀ st ∈ stores, st.1 + st.2.length ≤ size) (hsep : stores.Pairwise Apart) : ∃ b b',
      allocPut .new size fresh = .ok (b, 0) ∧ storeAll b stores = .ok b' ∧ b'.data = 0 ∧ b'.dataLen = size ∧
      b'.room = size ∧ ∀ st ∈ stores, b'.Holds st.1 st.2 := by
  obtain ⟨b, hb, hd, hl, hr⟩ := allocPut_new hs fresh
  obtain ⟨-, hd', -, hl'⟩ := writes_keeps b stores
  obtain ⟨hall, hr'⟩ := storeAll_writes (b := b) fun st hst => hr ▸ hin st hst
  refine ⟨b, _, hb, hall, hd'.trans hd, hl'.trans hl, hr'.trans hr, holds_writes (fun st hst => ?_) hsep⟩
  have := hin st hst
  rw [hr]
  omega

theorem length_snprintf (str : List BYTE) {size : Nat} (hs : 0 < size) : (snprintf str size).length ≤ size := by
  unfold snprintf
  rw [List.length_append, List.length_singleton, List.length_take]
  omega

/-- A string that a structure has at a place is what the command object is made of. -/
theorem argString_of_holds {b : BufferItem} (hd : b.data = 0) {o : Nat} {str : List BYTE} (h : b.Holds o (str ++ [0]))
    (h0 : 0 ∉ str) : SmartDeviceAdb.argString b o = .ok str := by
  rw [SmartDeviceAdb.argString, hd, Nat.zero_add, h.cString h0]

theorem argString_of_strncpy {b : BufferItem} (hd : b.data = 0) {o : Nat} {str : List BYTE}
    (h : b.Holds o (strncpy str maxPath)) (h0 : 0 ∉ str) (hlt : str.length < maxPath) :
    SmartDeviceAdb.argString b o = .ok str := by
  obtain ⟨t, ht⟩ := strncpy_short h0 hlt
  rw [ht] at h
  exact argString_of_holds hd h.of_prefix h0

/-- A size and a string: what the conversions for install and uninstall leave. -/
structure Sized (b : BufferItem) (dwLen : DWORD) (str : List BYTE) : Prop where
  data : b.data = 0
  dataLen : b.dataLen = 4 + dwLen.toNat
  room : b.room = 4 + dwLen.toNat
  size : b.Holds 0 (dwordBytes dwLen)
  str : b.Holds 4 str

section
variable (dwLen : DWORD) (str : List BYTE) (fresh : Nat → BYTE)

theorem toNat_dwSize : (.ofNat (sizeofArgsInstallApp - 1) + dwLen : DWORD).toNat =
    (4 + dwLen.toNat) % 2 ^ 32 := by
  rw [UInt32.toNat_add]
  rfl

theorem putSized_ok (hsize : 4 + dwLen.toNat < 2 ^ 32) (hstr : str.length ≤ dwLen.toNat) :
    ∃ b, putSized .new dwLen str fresh = .ok b ∧ Sized b dwLen str := by
  have hdw : (dwordBytes dwLen).length = 4 := rfl
  obtain ⟨b, b', hb, hb', hd, hl, hr, hall⟩ := allocPut_writes (4 + dwLen.toNat) (by omega) fresh
    [(0, dwordBytes dwLen), (4, str)]
    (by
      simp only [List.mem_cons, List.not_mem_nil, or_false, forall_eq_or_imp, forall_eq]
      omega)
    (by
      simp only [List.pairwise_cons, List.mem_cons, List.not_mem_nil, or_false, forall_eq, Apart, List.Pairwise.nil,
        and_true, false_implies, implies_true]
      omega)
  refine ⟨b', ?_, hd, hl, hr, hall _ List.mem_cons_self, hall _ (List.mem_cons_of_mem _ List.mem_cons_self)⟩
  unfold putSized
  dsimp only
  rw [toNat_dwSize, Nat.mod_eq_of_lt hsize, hb]
  exact hb'

/-- A sum that wraps, or a string behind it that is longer than its size. -/
theorem putSized_fails (h : 2 ^ 32 ≤ 4 + dwLen.toNat ∨ dwLen.toNat < str.length) :
    ∃ e, putSized .new dwLen str fresh = .error e := by
  have hdw : (dwordBytes dwLen).length = 4 := rfl
  have hlt := dwLen.toNat_lt
  obtain ⟨size, hsize⟩ : ∃ size, (4 + dwLen.toNat) % 2 ^ 32 = size := ⟨_, rfl⟩
  unfold putSized
  dsimp only
  rw [toNat_dwSize, hsize]
  rcases Nat.eq_zero_or_pos size with hz | hpos
  · rw [hz]
    exact ⟨_, rfl⟩
  · obtain ⟨b, hb, -, -, hr⟩ := allocPut_new hpos fresh
    rw [hb]
    have hover : ∃ st ∈ [(0, dwordBytes dwLen), (4, str)], b.room < st.1 + st.2.length := by
      by_cases hwrap : 2 ^ 32 ≤ 4 + dwLen.toNat
      · refine ⟨_, List.mem_cons_self, ?_⟩
        show b.room < 0 + (dwordBytes dwLen).length
        omega
      · refine ⟨_, List.mem_cons_of_mem _ List.mem_cons_self, ?_⟩
        show b.room < 4 + str.length
        omega
    obtain ⟨st, hst, ho⟩ := hover
    exact ⟨_, storeAll_overrun hst ho⟩

end

/-- The size that is stored is the string's. -/
theorem Sized.sizeofArgs {b : BufferItem} {dwLen : DWORD} {str : List BYTE} (h : Sized b dwLen str) :
    dwordField (b.mem.drop b.data) 0 = some dwLen := by
  rw [h.data, List.drop_zero, dwordField_of_holds h.size]

/-- **The structure with a size is filled exactly when the string with its zero is not empty.** -/
theorem Sized.fills_iff {cfg : ConfigCenter} {c : DevCmdCode}
    (hc : c = .installApp ∨ c = .installInfoview ∨ c = .uninstallApp) {s str : List BYTE} {b : BufferItem}
    {dwLen : DWORD} (h : Sized b dwLen str) (hstr : dwLen ≠ 0 → str.length ≤ dwLen.toNat ∧ 0 ∈ str) :
    Fills cfg c s b ↔ dwLen ≠ 0 := by
  have hsize : CmdArgs.sizeofArgs c (b.mem.drop b.data) = 4 + dwLen.toNat := by
    have h4 := h.sizeofArgs
    rcases hc with rfl | rfl | rfl
    all_goals
      unfold CmdArgs.sizeofArgs
      dsimp only
      rw [h4]
  have hfields : stringFields c (b.mem.drop b.data) = [(4, dwLen.toNat)] := by
    rcases hc with rfl | rfl | rfl
    all_goals
      unfold stringFields
      dsimp only
      rw [hsize, Nat.add_sub_cancel_left]
  constructor
  · rintro hf rfl
    have := hf.strings (4, 0) (by rw [hfields]; exact List.mem_singleton_self _)
    cases this
  · intro hne
    obtain ⟨hlen, hzero⟩ := hstr hne
    refine ⟨?_, ?_, ?_⟩
    · rw [hsize, dataSize, h.dataLen]
    · intro f hf
      rw [hfields, List.mem_singleton] at hf
      subst hf
      rw [← h.str.take] at hzero
      rw [h.data, List.drop_zero]
      exact (List.take_prefix_take_left hlen).subset hzero
    · rintro (rfl | rfl)
      · rcases hc with h | h | h <;> cases h
      · rcases hc with h | h | h <;> cases h

section
variable (cfg : ConfigCenter) (fresh : Nat → BYTE) {s : List BYTE} (h0 : 0 ∉ s) (t : List BYTE)
include h0

theorem convertArgs_install {c : DevCmdCode} (hc : c = .installApp ∨ c = .installInfoview) {dwLen : DWORD}
    (hdw : .ofNat (cfg.appDir.length + s.length + 1) = dwLen) :
    convertArgs cfg fresh (some c) (s ++ 0 :: t) .new =
      (putSized .new dwLen (if dwLen = 0 then [] else snprintf (cfg.appDir ++ s) dwLen.toNat) fresh).map fun b =>
        { biArgs := b, dwRet := errorSuccess, reads := [(0, s.length + 1), (0, s.length + 1)] } := by
  rcases hc with rfl | rfl
  all_goals
    unfold convertArgs
    dsimp only
    rw [lookString_zero h0]
    dsimp only [bind, Except.bind]
    rw [hdw]
    cases putSized .new dwLen (if dwLen = 0 then [] else snprintf (cfg.appDir ++ s) dwLen.toNat) fresh <;> rfl

theorem convertArgs_uninstall : convertArgs cfg fresh (some .uninstallApp) (s ++ 0 :: t) .new =
    (putSized .new (.ofNat (s.length + 1)) (s ++ [0]) fresh).map fun b =>
      { biArgs := b, dwRet := errorSuccess, reads := [(0, s.length + 1), (0, s.length + 1)] } := by
  unfold convertArgs
  dsimp only
  rw [lookString_zero h0]
  dsimp only [bind, Except.bind]
  cases putSized .new (.ofNat (s.length + 1)) (s ++ [0]) fresh <;> rfl

omit h0 in
/-- What is printed for an installation stays in its field, with a zero where there is room for one. -/
theorem printed_install (str : List BYTE) (dwLen : DWORD) :
    (if dwLen = 0 then [] else snprintf str dwLen.toNat).length ≤ dwLen.toNat ∧
      (dwLen ≠ 0 → 0 ∈ if dwLen = 0 then [] else snprintf str dwLen.toNat) := by
  split
  · rename_i hz
    exact ⟨Nat.zero_le _, fun h => absurd hz h⟩
  · rename_i hz
    have hpos : 0 < dwLen.toNat := Nat.pos_of_ne_zero fun h => hz (UInt32.toNat_inj.1 h)
    exact ⟨length_snprintf _ hpos, fun _ => List.mem_append_right _ (List.mem_singleton_self 0)⟩

omit h0 in
theorem deviceFile_suffix (s : List BYTE) : deviceFile s <:+ s := by
  have hsuf : s.dropWhile (· ≠ 44) <:+ s := List.dropWhile_suffix _
  unfold deviceFile
  split
  · exact List.suffix_rfl
  · rename_i c p hd
    exact (List.suffix_cons c p).trans (hd ▸ hsuf)

omit h0 in
/-- The string after the comma is overwritten, and where the second name begins. -/
theorem cut_comma (s t : List BYTE) : ∃ v p,
    (if (s ++ 0 :: t)[(hostFile s).length]? = some 44 then ((s ++ 0 :: t).set (hostFile s).length 0,
      (hostFile s).length + 1) else (s ++ 0 :: t, 0)) = (hostFile s ++ 0 :: v, p) ∧
      (hostFile s ++ 0 :: v).drop p = deviceFile s ++ 0 :: t ∧ p + (deviceFile s).length = s.length ∧
      (hostFile s ++ 0 :: v).length = s.length + 1 + t.length := by
  rcases comma_cases s with ⟨hh, hd⟩ | hs
  · refine ⟨t, 0, ?_, ?_, ?_, ?_⟩
    · rw [hh, if_neg (by simp)]
    · rw [hh, hd, List.drop_zero]
    · rw [hd, Nat.zero_add]
    · rw [hh, List.length_append, List.length_cons]
      omega
  · obtain ⟨u, hu⟩ : ∃ u, hostFile s = u := ⟨_, rfl⟩
    obtain ⟨d, hd⟩ : ∃ d, deviceFile s = d := ⟨_, rfl⟩
    rw [hu, hd] at hs
    rw [hu, hd, hs]
    have happ : u ++ 44 :: d ++ 0 :: t = u ++ 44 :: (d ++ 0 :: t) := by simp
    refine ⟨d ++ 0 :: t, u.length + 1, ?_, ?_, ?_, ?_⟩
    · rw [happ, if_pos (by simp)]
      simp
    · simp
    · rw [List.length_append, List.length_cons]
      omega
    · simp only [List.length_append, List.length_cons]
      omega

/-- The three strings of a push or a pull in their places. -/
structure Paths (cfg : ConfigCenter) (s : List BYTE) (b : BufferItem) : Prop where
  data : b.data = 0
  dataLen : b.dataLen = sizeofArgsPushPullFile
  pathH : b.Holds 0 ((cfg.hostFileDir ++ hostFile s).take (maxPath - 1) ++ [0])
  pathH_mem : 0 ∈ (b.mem.drop 0).take maxPath
  pathD : b.Holds maxPath (strncpy cfg.devFileDir maxPath)
  fileD : b.Holds (maxPath + maxPath) (strncpy (deviceFile s) maxPath)

omit h0 in
theorem hostFile_zero (h0 : 0 ∉ s) : 0 ∉ hostFile s := fun h => h0 ((List.takeWhile_prefix _).subset h)

/-- The reads stay in the string, with and without a comma. -/
theorem convertArgs_pushPull {c : DevCmdCode} (hc : c = .pushFile ∨ c = .pullFile) : ∃ b reads,
    convertArgs cfg fresh (some c) (s ++ 0 :: t) .new = .ok { biArgs := b, dwRet := errorSuccess, reads } ∧
      (∀ x ∈ reads, x.2 ≤ s.length + 1) ∧ Paths cfg s b := by
  have hH := length_snprintf (cfg.hostFileDir ++ hostFile s) (show 0 < maxPath by decide)
  have hD := length_strncpy cfg.devFileDir maxPath
  have hF := length_strncpy (deviceFile s) maxPath
  have hmax : maxPath = 256 := rfl
  have hsize : sizeofArgsPushPullFile = 768 := rfl
  obtain ⟨b, b', hb, hall, hd, hl, -, hholds⟩ := allocPut_writes sizeofArgsPushPullFile (by decide) fresh
    [(0, snprintf (cfg.hostFileDir ++ hostFile s) maxPath), (0 + maxPath, strncpy cfg.devFileDir maxPath),
      (0 + maxPath + maxPath, strncpy (deviceFile s) maxPath)]
    (by
      simp only [List.mem_cons, List.not_mem_nil, or_false, forall_eq_or_imp, forall_eq]
      omega)
    (by
      simp only [List.pairwise_cons, List.mem_cons, List.not_mem_nil, or_false, forall_eq_or_imp, forall_eq, Apart,
        List.Pairwise.nil, and_true, false_implies, implies_true]
      omega)
  simp only [List.mem_cons, List.not_mem_nil, or_false, forall_eq_or_imp, forall_eq, Nat.zero_add] at hholds
  obtain ⟨h₁, h₂, h₃⟩ := hholds
  have hd0 : 0 ∉ deviceFile s := fun hz => h0 ((deviceFile_suffix s).subset hz)
  have hhost : (hostFile s).length ≤ s.length := (List.takeWhile_prefix _).length_le
  obtain ⟨v, p, hcut, hdrop, hp, hlen⟩ := cut_comma s t
  have hcopy : strncpy (deviceFile s ++ 0 :: t) maxPath = strncpy (deviceFile s) maxPath := by
    unfold strncpy
    rw [takeWhile_ne_zero hd0, takeWhile_of_free hd0]
  have hr₀ : look (s ++ 0 :: t) 0 ((hostFile s).length + 1) = .ok (0, 0 + ((hostFile s).length + 1)) := by
    apply look_ok
    rw [List.length_append, List.length_cons]
    omega
  obtain ⟨n, hn⟩ : ∃ n, min maxPath ((deviceFile s).length + 1) = n := ⟨_, rfl⟩
  have hr₂ : look (hostFile s ++ 0 :: v) p n = .ok (p, p + n) := look_ok (by omega)
  refine ⟨b', [(0, 0 + ((hostFile s).length + 1)), (0, (hostFile s).length + 1), (p, p + n)], ?_, ?_, hd, hl, h₁, ?_,
    h₂, h₃⟩
  · rcases hc with rfl | rfl
    all_goals
      unfold convertArgs
      dsimp only
      rw [hb, takeWhile_comma h0 t, hcut]
      dsimp only [bind, Except.bind]
      rw [hr₀]
      dsimp only
      rw [lookString_zero (hostFile_zero h0), hdrop]
      dsimp only
      rw [takeWhile_ne_zero hd0, hn, hr₂, hcopy]
      dsimp only
      rw [hall]
  · simp only [List.mem_cons, List.not_mem_nil, or_false, forall_eq_or_imp, forall_eq]
    omega
  · have htake := h₁.take
    have hmem : 0 ∈ snprintf (cfg.hostFileDir ++ hostFile s) maxPath :=
      List.mem_append_right _ (List.mem_singleton_self 0)
    rw [← htake] at hmem
    exact (List.take_prefix_take_left hH).subset hmem

theorem convertArgs_del : ∃ b, convertArgs cfg fresh (some .delFile) (s ++ 0 :: t) .new =
    .ok { biArgs := b, dwRet := errorSuccess, reads := [(0, s.length + 1)] } ∧
    b.data = 0 ∧ b.dataLen = sizeofArgsDelFile ∧ b.Holds 0 ((cfg.devFileDir ++ s).take (maxPath - 1) ++ [0]) := by
  have hD := length_snprintf (cfg.devFileDir ++ s) (show 0 < maxPath by decide)
  have hsize : sizeofArgsDelFile = maxPath := rfl
  obtain ⟨b, b', hb, hall, hd, hl, -, hholds⟩ := allocPut_writes sizeofArgsDelFile (by decide) fresh
    [(0, snprintf (cfg.devFileDir ++ s) maxPath)]
    (fun st hst => by
      rw [List.mem_singleton.1 hst, hsize, Nat.zero_add]
      exact hD)
    (List.pairwise_singleton _ _)
  refine ⟨b', ?_, hd, hl, hholds _ (List.mem_singleton_self _)⟩
  unfold convertArgs
  dsimp only
  rw [hb]
  dsimp only [bind, Except.bind]
  rw [lookString_zero h0]
  dsimp only
  rw [hall]

omit h0 in
/-- A label, when there is a letter to look behind. -/
theorem convertArgs_label (hne : s ≠ []) : ∃ b reads, convertArgs cfg fresh (some .labelShow) (s ++ 0 :: t) .new =
    .ok { biArgs := b, dwRet := errorSuccess, reads } ∧ (∀ x ∈ reads, x.2 ≤ s.length + 1) ∧
      b.dataLen = sizeofArgsShowLabel := by
  obtain ⟨c, s, rfl⟩ := List.exists_cons_of_ne_nil hne
  have hwithin := atoi_within s t
  obtain ⟨dwNum, hnum⟩ : ∃ dwNum, atoi (s ++ 0 :: t) = dwNum := ⟨_, rfl⟩
  rw [hnum] at hwithin
  obtain ⟨b, b', hb, hall, -, hl, -, -⟩ := allocPut_writes sizeofArgsShowLabel (by decide) fresh
    [(0, [if (c :: s ++ 0 :: t).head? = some 70 then 1 else 0]), (0 + 1, dwordBytes dwNum.1)]
    (by
      have hdw : (dwordBytes dwNum.1).length = 4 := rfl
      simp only [List.mem_cons, List.not_mem_nil, or_false, forall_eq_or_imp, forall_eq, hdw, List.length_singleton]
      decide)
    (by
      simp only [List.pairwise_cons, List.mem_cons, List.not_mem_nil, or_false, forall_eq, Apart, List.Pairwise.nil,
        and_true, false_implies, implies_true, List.length_singleton]
      omega)
  have hlen : (c :: s ++ 0 :: t).length = s.length + 1 + (t.length + 1) := by
    rw [List.length_append, List.length_cons, List.length_cons]
  have hr₀ : look (c :: s ++ 0 :: t) 0 1 = .ok (0, 1) := look_ok (by omega)
  have hr₁ : look (c :: s ++ 0 :: t) 1 dwNum.2 = .ok (1, 1 + dwNum.2) := look_ok (by omega)
  refine ⟨b', [(0, 1), (1, 1 + dwNum.2)], ?_, ?_, hl⟩
  · unfold convertArgs
    dsimp only
    rw [hb]
    dsimp only [bind, Except.bind]
    rw [hr₀]
    have hdrop : (c :: s ++ 0 :: t).drop 1 = s ++ 0 :: t := rfl
    dsimp only
    rw [hdrop, hnum, hr₁]
    dsimp only
    rw [hall]
  · simp only [List.mem_cons, List.not_mem_nil, or_false, forall_eq_or_imp, forall_eq, List.length_cons]
    omega

end

/-- A label's number is looked for behind its first byte, whatever that is. -/
theorem label_reads {cfg : ConfigCenter} {fresh : Nat → BYTE} {szArgs : List BYTE} {biArgs : BufferItem}
    {r : Converted} (h : convertArgs cfg fresh (some .labelShow) szArgs biArgs = .ok r) : ∃ x ∈ r.reads, 1 < x.2 := by
  obtain ⟨⟨b, p⟩, -, h⟩ := bind_eq_ok.1 h
  obtain ⟨r₀, -, h⟩ := bind_eq_ok.1 h
  obtain ⟨r₁, hr₁, h⟩ := bind_eq_ok.1 h
  obtain ⟨b', -, h⟩ := bind_eq_ok.1 h
  cases h
  refine ⟨r₁, List.mem_cons_of_mem _ List.mem_cons_self, ?_⟩
  unfold look at hr₁
  split at hr₁
  · cases hr₁
    show 1 < 1 + (_ + 1)
    omega
  · cases hr₁

theorem Paths.pathD_iff {cfg : ConfigCenter} {s : List BYTE} {b : BufferItem} (h : Paths cfg s b) (h0 : 0 ∉ s) :
    (∀ f ∈ stringFields .pushFile (b.mem.drop b.data), 0 ∈ ((b.mem.drop b.data).drop f.1).take f.2) ↔
      cfg.devFileDir.length < maxPath ∧ (deviceFile s).length < maxPath := by
  have hD := h.pathD.take
  have hF := h.fileD.take
  rw [length_strncpy] at hD hF
  unfold stringFields
  simp only [List.mem_cons, List.not_mem_nil, or_false, forall_eq_or_imp, forall_eq]
  simp only [h.data, List.drop_zero]
  rw [hD, hF, zero_mem_strncpy cfg.devFileDir_ok,
    zero_mem_strncpy fun hz => h0 ((deviceFile_suffix s).subset hz)]
  exact ⟨fun hh => hh.2, fun hh => ⟨h.pathH_mem, hh⟩⟩

/-- What the command object is made of, when both names leave room for their zeros. -/
theorem Paths.createCmd {cfg : ConfigCenter} {c : DevCmdCode} (hc : c = .pushFile ∨ c = .pullFile) {s : List BYTE}
    {b : BufferItem} (h : Paths cfg s b) (h0 : 0 ∉ s) (hD : cfg.devFileDir.length < maxPath)
    (hF : (deviceFile s).length < maxPath) : SmartDeviceAdb.createCmd c b = .ok (.pushPullFile
      ((cfg.hostFileDir ++ hostFile s).take (maxPath - 1)) cfg.devFileDir (deviceFile s) (c = .pushFile)) := by
  have hzero : 0 ∉ cfg.hostFileDir ++ hostFile s := fun hz =>
    (List.mem_append.1 hz).elim cfg.hostFileDir_ok (hostFile_zero h0)
  have h₁ := argString_of_holds h.data h.pathH fun hz => hzero (List.mem_of_mem_take hz)
  have h₂ := argString_of_strncpy h.data h.pathD cfg.devFileDir_ok hD
  have h₃ := argString_of_strncpy h.data h.fileD (fun hz => h0 ((deviceFile_suffix s).subset hz)) hF
  rcases hc with rfl | rfl
  all_goals
    unfold SmartDeviceAdb.createCmd
    dsimp only
    rw [h₁, h₂, h₃]
    rfl

theorem Paths.fills_iff {cfg : ConfigCenter} {c : DevCmdCode} (hc : c = .pushFile ∨ c = .pullFile) {s : List BYTE}
    {b : BufferItem} (h : Paths cfg s b) (h0 : 0 ∉ s) :
    Fills cfg c s b ↔ cfg.devFileDir.length < maxPath ∧ (deviceFile s).length < maxPath := by
  have hfields : stringFields c (b.mem.drop b.data) = stringFields .pushFile (b.mem.drop b.data) := by
    rcases hc with rfl | rfl <;> rfl
  rw [← h.pathD_iff h0, ← hfields]
  constructor
  · exact fun hf => hf.strings
  · intro hs
    refine ⟨?_, hs, fun _ => ?_⟩
    · rw [dataSize, h.dataLen]
      rcases hc with rfl | rfl <;> rfl
    · rw [hfields] at hs
      obtain ⟨hD, hF⟩ := (h.pathD_iff h0).1 hs
      refine ⟨cfg.devFileDir, ?_⟩
      rw [h.createCmd hc h0 hD hF, List.take_of_length_le (Nat.le_sub_one_of_lt hF)]

section
variable {cfg : ConfigCenter} {fresh : Nat → BYTE} {c : DevCmdCode} {s t : List BYTE}

theorem agrees_of_ok {cmdCode : Option DevCmdCode} {r : Converted}
    (h : convertArgs cfg fresh cmdCode (s ++ 0 :: t) .new = .ok r) :
    Agrees cfg fresh cmdCode s t ↔ r.Right cfg cmdCode s := by
  constructor
  · rintro ⟨r', h', hr⟩
    rw [h] at h'
    cases h'
    exact hr
  · exact fun hr => ⟨r, h, hr⟩

theorem not_agrees_of_error {cmdCode : Option DevCmdCode}
    (h : ∃ e, convertArgs cfg fresh cmdCode (s ++ 0 :: t) .new = .error e) : ¬ Agrees cfg fresh cmdCode s t := by
  obtain ⟨e, he⟩ := h
  rintro ⟨r, hr, -⟩
  rw [he] at hr
  cases hr

/-- The codes that are converted. -/
theorem agrees_of_convert {b : BufferItem} {reads : List (Nat × Nat)}
    (h : convertArgs cfg fresh (some c) (s ++ 0 :: t) .new = .ok { biArgs := b, dwRet := errorSuccess, reads })
    (hreads : ∀ x ∈ reads, x.2 ≤ s.length + 1) : Agrees cfg fresh (some c) s t ↔ Fills cfg c s b := by
  rw [agrees_of_ok h]
  constructor
  · intro hr
    rcases hr.outcome with ⟨he, -⟩ | ⟨c', hc, -, hf⟩
    · cases he
    · cases hc
      exact hf
  · exact fun hf => ⟨hreads, .inr ⟨c, rfl, rfl, hf⟩⟩

theorem agrees_of_refused {cmdCode : Option DevCmdCode}
    (h : convertArgs cfg fresh cmdCode (s ++ 0 :: t) .new =
      .ok { biArgs := .new, dwRet := errorNotSupported, reads := [] }) : Agrees cfg fresh cmdCode s t :=
  ⟨_, h, fun _ hx => (List.not_mem_nil hx).elim, .inl ⟨rfl, rfl⟩⟩

theorem sized_reads (x : Nat × Nat) (hx : x ∈ [(0, s.length + 1), (0, s.length + 1)]) : x.2 ≤ s.length + 1 := by
  simp only [List.mem_cons, List.not_mem_nil, or_false, or_self] at hx
  exact Nat.le_of_eq (congrArg Prod.snd hx)

/-- What is printed for an installation is cut to the length that the structure has. -/
theorem agrees_install (h0 : 0 ∉ s) (hc : c = .installApp ∨ c = .installInfoview) :
    Agrees cfg fresh (some c) s t ↔ LengthFits (cfg.appDir.length + s.length + 1) := by
  obtain ⟨dwLen, hdw⟩ : ∃ dwLen : DWORD, .ofNat (cfg.appDir.length + s.length + 1) = dwLen := ⟨_, rfl⟩
  have hval : (cfg.appDir.length + s.length + 1) % 2 ^ 32 = dwLen.toNat := hdw ▸ (UInt32.toNat_ofNat' ..).symm
  have hconv := convertArgs_install cfg fresh h0 t hc hdw
  have hc' : c = .installApp ∨ c = .installInfoview ∨ c = .uninstallApp := by
    rcases hc with h | h
    · exact .inl h
    · exact .inr (.inl h)
  obtain ⟨hlen, hzero⟩ := printed_install (cfg.appDir ++ s) dwLen
  unfold LengthFits
  rw [hval]
  by_cases hsize : 4 + dwLen.toNat < 2 ^ 32
  · obtain ⟨b, hb, hs⟩ := putSized_ok dwLen _ fresh hsize hlen
    rw [hb] at hconv
    rw [agrees_of_convert hconv sized_reads, hs.fills_iff hc' fun hne => ⟨hlen, hzero hne⟩]
    have hpos : dwLen ≠ 0 ↔ 0 < dwLen.toNat := by
      rw [Nat.pos_iff_ne_zero, ne_eq, ne_eq, ← UInt32.toNat_inj]
      rfl
    rw [hpos]
    exact ⟨fun h => ⟨h, hsize⟩, fun h => h.1⟩
  · obtain ⟨e, he⟩ := putSized_fails dwLen (if dwLen = 0 then [] else snprintf (cfg.appDir ++ s) dwLen.toNat) fresh
      (.inl (Nat.le_of_not_lt hsize))
    rw [he] at hconv
    exact iff_of_false (not_agrees_of_error ⟨e, hconv⟩) fun h => hsize h.2

/-- The name of an uninstallation is copied whole, so a length that wraps is overrun. -/
theorem convertArgs_uninstall_cases (cfg : ConfigCenter) (fresh : Nat → BYTE) (t : List BYTE) (h0 : 0 ∉ s) :
    (4 + (s.length + 1) < 2 ^ 32 ∧ ∃ b, convertArgs cfg fresh (some .uninstallApp) (s ++ 0 :: t) .new =
        .ok { biArgs := b, dwRet := errorSuccess, reads := [(0, s.length + 1), (0, s.length + 1)] } ∧
        Sized b (.ofNat (s.length + 1)) (s ++ [0])) ∨
      ¬ 4 + (s.length + 1) < 2 ^ 32 ∧
        ∃ e, convertArgs cfg fresh (some .uninstallApp) (s ++ 0 :: t) .new = .error e := by
  have hconv := convertArgs_uninstall cfg fresh h0 t
  have hval : (UInt32.ofNat (s.length + 1)).toNat = (s.length + 1) % 2 ^ 32 := UInt32.toNat_ofNat' ..
  have hlen : (s ++ [0]).length = s.length + 1 := by rw [List.length_append, List.length_singleton]
  by_cases hsize : 4 + (s.length + 1) < 2 ^ 32
  · obtain ⟨b, hb, hs⟩ := putSized_ok (.ofNat (s.length + 1)) (s ++ [0]) fresh (by omega) (by omega)
    rw [hb] at hconv
    exact .inl ⟨hsize, b, hconv, hs⟩
  · obtain ⟨e, he⟩ := putSized_fails (.ofNat (s.length + 1)) (s ++ [0]) fresh (by omega)
    rw [he] at hconv
    exact .inr ⟨hsize, e, hconv⟩

theorem agrees_uninstall (h0 : 0 ∉ s) :
    Agrees cfg fresh (some .uninstallApp) s t ↔ 4 + (s.length + 1) < 2 ^ 32 := by
  rcases convertArgs_uninstall_cases cfg fresh t h0 with ⟨hsize, b, hb, hs⟩ | ⟨hsize, he⟩
  · have hlt : s.length + 1 < 2 ^ 32 := by omega
    have hval : (UInt32.ofNat (s.length + 1)).toNat = s.length + 1 := UInt32.toNat_ofNat_of_lt hlt
    have hne : UInt32.ofNat (s.length + 1) ≠ 0 := fun h => by
      rw [h] at hval
      cases hval
    have hstr : (s ++ [0]).length ≤ (UInt32.ofNat (s.length + 1)).toNat ∧ 0 ∈ s ++ [0] := by
      rw [hval, List.length_append]
      exact ⟨Nat.le_refl _, List.mem_append_right _ (List.mem_singleton_self 0)⟩
    rw [agrees_of_convert hb sized_reads, hs.fills_iff (.inr (.inr rfl)) fun _ => hstr]
    exact iff_of_true hne hsize
  · exact iff_of_false (not_agrees_of_error he) hsize

theorem agrees_pushPull (h0 : 0 ∉ s) (hc : c = .pushFile ∨ c = .pullFile) : Agrees cfg fresh (some c) s t ↔
    cfg.devFileDir.length < maxPath ∧ (deviceFile s).length < maxPath := by
  obtain ⟨b, reads, hb, hreads, hs⟩ := convertArgs_pushPull cfg fresh h0 t hc
  rw [agrees_of_convert hb hreads, hs.fills_iff hc h0]

theorem agrees_label : Agrees cfg fresh (some .labelShow) s t ↔ s ≠ [] := by
  constructor
  · rintro ⟨r, hr, hright⟩ rfl
    obtain ⟨x, hx, hlt⟩ := label_reads hr
    exact absurd (hright.reads x hx) (Nat.not_le.2 hlt)
  · intro hne
    obtain ⟨b, reads, hb, hreads, hl⟩ := convertArgs_label cfg fresh t hne
    rw [agrees_of_convert hb hreads]
    refine ⟨hl, fun f hf => absurd hf List.not_mem_nil, ?_⟩
    rintro (h | h) <;> cases h

theorem agrees_del (h0 : 0 ∉ s) : Agrees cfg fresh (some .delFile) s t := by
  obtain ⟨b, hb, hd, hl, hs⟩ := convertArgs_del cfg fresh h0 t
  have hreads : ∀ x ∈ [(0, s.length + 1)], x.2 ≤ s.length + 1 := fun x hx => by rw [List.mem_singleton.1 hx]
  refine (agrees_of_convert hb hreads).2 ⟨hl, fun f hf => ?_, ?_⟩
  · rw [List.mem_singleton.1 hf, hd, List.drop_zero]
    have hmem : 0 ∈ (cfg.devFileDir ++ s).take (maxPath - 1) ++ [0] :=
      List.mem_append_right _ (List.mem_singleton_self 0)
    rw [← hs.take] at hmem
    exact (List.take_prefix_take_left (length_snprintf _ (by decide))).subset hmem
  · rintro (h | h) <;> cases h

end

/-- **The conversion is safe and agrees with its reader exactly for the arguments that are convertible.** -/
theorem agrees_iff (cfg : ConfigCenter) (fresh : Nat → BYTE) (cmdCode : Option DevCmdCode) {s : List BYTE} (h0 : 0 ∉ s)
    (t : List BYTE) : Agrees cfg fresh cmdCode s t ↔ Convertible cfg s cmdCode := by
  cases cmdCode with
  | none => exact iff_of_true (agrees_of_refused rfl) trivial
  | some c =>
    cases c with
    | installApp => exact agrees_install h0 (.inl rfl)
    | installInfoview => exact agrees_install h0 (.inr rfl)
    | uninstallApp => exact agrees_uninstall h0
    | pushFile => exact agrees_pushPull h0 (.inl rfl)
    | pullFile => exact agrees_pushPull h0 (.inr rfl)
    | labelShow => exact agrees_label
    | delFile => exact iff_of_true (agrees_del h0) trivial
    | screenCap => exact iff_of_true (agrees_of_refused rfl) trivial
    | getSysinfo => exact iff_of_true (agrees_of_refused rfl) trivial
    | getBattinfo => exact iff_of_true (agrees_of_refused rfl) trivial
    | getDiskinfo => exact iff_of_true (agrees_of_refused rfl) trivial
    | getApplist => exact iff_of_true (agrees_of_refused rfl) trivial
    | findMe => exact iff_of_true (agrees_of_refused rfl) trivial

def noDirs : ConfigCenter where
  appDir := []
  hostFileDir := []
  devFileDir := []
  appDir_ok := List.not_mem_nil
  hostFileDir_ok := List.not_mem_nil
  devFileDir_ok := List.not_mem_nil

theorem agrees_push : Agrees noDirs (fun _ => 1) (some .pushFile) (ascii "a.txt,b.txt") [] :=
  (agrees_iff noDirs (fun _ => 1) (some .pushFile) (by decide) []).2 ⟨by decide, by decide⟩

/-- **A label without arguments is read behind its zero.** -/
theorem emptyLabel_not_agrees : ¬ Agrees noDirs (fun _ => 1) (some .labelShow) [] [0] := by
  rintro ⟨r, hr, hright⟩
  obtain ⟨x, hx, hlt⟩ := label_reads hr
  exact absurd (hright.reads x hx) (Nat.not_le.2 hlt)

end CmdArgs

end DevMgr
