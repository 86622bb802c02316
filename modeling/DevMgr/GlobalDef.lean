import Mathlib.Algebra.Group.Nat.Defs
import Mathlib.Data.List.Basic
import Mathlib.Data.List.TakeWhile
/-!
# GlobalDef — the shared constants, machine words and the PDU header

The constants and enumerations of `GlobalDef.h` that the modelled functions read, the machine words of the 32-bit
Android ABIs (`DWORD` is four bytes, memory is little endian), the byte-order functions, and `PDU_COMM_HDR` as the
twelve bytes of the packed structure.
-/
namespace DevMgr

abbrev BYTE := UInt8
abbrev WORD := UInt16
abbrev DWORD := UInt32
abbrev UINT := UInt32

def pduHeadReserve : Nat := 256
def pduMaxLength : Nat := 1000
def pduMagicNum : DWORD := 0x5544505F
def maxDevIdLen : Nat := 64
def cPduDbmsg : UInt8 := 0

def errorSuccess : Nat := 0
def errorOutOfMemory : Nat := 14
def errorNotSupported : Nat := 50
def errorNotFound : Nat := 1168
def errorCancelled : Nat := 1223
def errorNotConnected : Nat := 2250
def waitTimeout : Nat := 258
def waitFailed : Nat := 0xffffffff

/-- `strncpy` of a string given with what follows it in memory: `n` bytes, zeros after the first zero. -/
def strncpy (src : List BYTE) (n : Nat) : List BYTE :=
  let str := (src.takeWhile (· ≠ 0)).take n
  str ++ List.replicate (n - str.length) 0

theorem length_strncpy (src : List BYTE) (n : Nat) : (strncpy src n).length = n := by
  unfold strncpy
  rw [List.length_append, List.length_replicate]
  have := List.length_take_le n (src.takeWhile (· ≠ 0))
  omega

theorem takeWhile_of_free {src : List BYTE} (h0 : 0 ∉ src) : src.takeWhile (· ≠ 0) = src := by
  rw [List.takeWhile_eq_self_iff]
  intro b hb
  exact decide_eq_true fun h => h0 (h ▸ hb)

/-- A string that fills its field leaves no zero in it. -/
theorem strncpy_full {src : List BYTE} (h0 : 0 ∉ src) {n : Nat} (hn : src.length = n) : strncpy src n = src := by
  unfold strncpy
  dsimp only
  rw [takeWhile_of_free h0, List.take_of_length_le (Nat.le_of_eq hn), hn, Nat.sub_self, List.replicate_zero,
    List.append_nil]

/-- **A field has a zero exactly when its string is shorter than it.** -/
theorem zero_mem_strncpy {src : List BYTE} (h0 : 0 ∉ src) {n : Nat} : 0 ∈ strncpy src n ↔ src.length < n := by
  unfold strncpy
  dsimp only
  rw [takeWhile_of_free h0, List.mem_append, List.mem_replicate, List.length_take]
  constructor
  · rintro (h | h)
    · exact absurd (List.mem_of_mem_take h) h0
    · omega
  · intro h
    right
    exact ⟨by omega, rfl⟩

theorem strncpy_short {src : List BYTE} (h0 : 0 ∉ src) {n : Nat} (hn : src.length < n) :
    ∃ t, strncpy src n = src ++ [0] ++ t := by
  obtain ⟨k, hk⟩ : ∃ k, n - src.length = k + 1 := ⟨n - src.length - 1, by omega⟩
  refine ⟨List.replicate k 0, ?_⟩
  unfold strncpy
  dsimp only
  rw [takeWhile_of_free h0, List.take_of_length_le (Nat.le_of_lt hn), hk, List.replicate_succ, List.append_assoc]
  rfl

/-- The C string at a place, given with what follows it in memory: the bytes before the first zero, if there is one. -/
def cString (mem : List BYTE) : Option (List BYTE) :=
  if 0 ∈ mem then some (mem.takeWhile (· ≠ 0)) else none

theorem takeWhile_ne_zero {str : List BYTE} (h : 0 ∉ str) (t : List BYTE) :
    (str ++ 0 :: t).takeWhile (· ≠ 0) = str := by
  rw [List.takeWhile_append_of_pos]
  · simp
  · intro a ha
    exact decide_eq_true fun h0 => h (h0 ▸ ha)

theorem zero_notMem_takeWhile (mem : List BYTE) : 0 ∉ mem.takeWhile (· ≠ 0) := by
  intro h
  have := List.mem_takeWhile_imp h
  exact absurd rfl (of_decide_eq_true this)

/-- **A C string is what stands in front of the first zero.** -/
theorem cString_eq_some {mem str : List BYTE} : cString mem = some str ↔ 0 ∉ str ∧ ∃ t, mem = str ++ 0 :: t := by
  constructor
  · intro h
    unfold cString at h
    split at h
    · rename_i h0
      obtain rfl := Option.some.inj h
      refine ⟨zero_notMem_takeWhile mem, ?_⟩
      clear h
      induction mem with
      | nil => cases h0
      | cons b bs ih =>
        by_cases hb : b = 0
        · exact ⟨bs, by simp [hb]⟩
        · obtain ⟨t, ht⟩ := ih ((List.mem_cons.1 h0).resolve_left (Ne.symm hb))
          refine ⟨t, ?_⟩
          rw [List.takeWhile_cons_of_pos (by simpa using hb), List.cons_append, ← ht]
    · cases h
  · rintro ⟨h0, t, rfl⟩
    unfold cString
    rw [if_pos (by simp), takeWhile_ne_zero h0]

/-- The string ends in the first `n` bytes of `m` exactly when there is a zero in them. -/
theorem cString_within (m t : List BYTE) (n : Nat) :
    (∃ str, cString (m ++ t) = some str ∧ str.length < n ∧ str.length < m.length) ↔ 0 ∈ m.take n := by
  constructor
  · rintro ⟨str, hs, hn, hm⟩
    obtain ⟨-, u, hu⟩ := cString_eq_some.1 hs
    have hz : (m ++ t)[str.length]? = some 0 := by
      rw [hu, List.getElem?_append_right (Nat.le_refl _), Nat.sub_self]
      rfl
    rw [List.getElem?_append_left hm] at hz
    refine List.mem_of_getElem? (i := str.length) ?_
    rw [List.getElem?_take_of_lt hn, hz]
  · intro h0
    have hs : cString (m.take n) = some ((m.take n).takeWhile (· ≠ 0)) := if_pos h0
    obtain ⟨hz, u, hu⟩ := cString_eq_some.1 hs
    have hlen := congrArg List.length hu
    rw [List.length_take, List.length_append, List.length_cons] at hlen
    refine ⟨_, cString_eq_some.2 ⟨hz, u ++ m.drop n ++ t, ?_⟩, by omega, by omega⟩
    conv_lhs => rw [← List.take_append_drop n m, hu]
    simp

/-- **Exactly a string of fewer than `n` bytes reads back from its field**: a longer one runs on past it. -/
theorem cString_strncpy (src tail : List BYTE) {n : Nat} (hn : 0 < n) :
    cString (strncpy src n ++ tail) = some ((src.takeWhile (· ≠ 0)).take (n - 1)) ↔
      (src.takeWhile (· ≠ 0)).length ≤ n - 1 := by
  have h0 := zero_notMem_takeWhile src
  unfold strncpy
  generalize src.takeWhile (· ≠ 0) = str at h0
  dsimp only
  rw [cString_eq_some]
  constructor
  · rintro ⟨-, t, ht⟩
    by_contra hlt
    have hlen : (str.take n).length = n := by rw [List.length_take]; omega
    -- the zero behind `n - 1` bytes would be a byte of the string
    have hz : ((str.take n) ++ List.replicate (n - (str.take n).length) 0 ++ tail)[n - 1]? = some 0 := by
      rw [ht, List.getElem?_append_right (by rw [List.length_take]; omega), List.length_take,
        Nat.min_eq_left (by omega), Nat.sub_self]
      rfl
    rw [List.append_assoc, List.getElem?_append_left (by omega), List.getElem?_take_of_lt (by omega)] at hz
    exact h0 (List.mem_of_getElem? hz)
  · intro hle
    obtain ⟨k, hk⟩ : ∃ k, n - str.length = k + 1 := ⟨n - str.length - 1, by omega⟩
    rw [List.take_of_length_le (show str.length ≤ n by omega), List.take_of_length_le hle, hk, List.replicate_succ]
    exact ⟨h0, List.replicate k 0 ++ tail, by rw [List.append_assoc, List.cons_append]⟩

/-! ## Words in memory and on the wire -/

/-- The word at four bytes of memory. -/
def dwordAt (b0 b1 b2 b3 : BYTE) : DWORD :=
  UInt32.ofNat (b0.toNat + 256 * b1.toNat + 65536 * b2.toNat + 16777216 * b3.toNat)

def byteOf (n k : Nat) : BYTE := UInt8.ofNat (n / 256 ^ k)

/-- The four bytes a word is stored as. -/
def dwordBytes (x : DWORD) : List BYTE := [byteOf x.toNat 0, byteOf x.toNat 1, byteOf x.toNat 2, byteOf x.toNat 3]

def wordAt (b0 b1 : BYTE) : WORD := UInt16.ofNat (b0.toNat + 256 * b1.toNat)

def wordBytes (x : WORD) : List BYTE := [byteOf x.toNat 0, byteOf x.toNat 1]

def htonl (x : DWORD) : DWORD := dwordAt (byteOf x.toNat 3) (byteOf x.toNat 2) (byteOf x.toNat 1) (byteOf x.toNat 0)

def ntohl (x : DWORD) : DWORD := htonl x

def htons (x : WORD) : WORD := wordAt (byteOf x.toNat 1) (byteOf x.toNat 0)

def ntohs (x : WORD) : WORD := htons x

@[simp] theorem byteOf_toNat (n k : Nat) : (byteOf n k).toNat = n / 256 ^ k % 256 := by
  simp [byteOf]

theorem dwordAt_toNat (b0 b1 b2 b3 : BYTE) :
    (dwordAt b0 b1 b2 b3).toNat = b0.toNat + 256 * b1.toNat + 65536 * b2.toNat + 16777216 * b3.toNat := by
  have h0 := b0.toNat_lt
  have h1 := b1.toNat_lt
  have h2 := b2.toNat_lt
  have h3 := b3.toNat_lt
  unfold dwordAt
  rw [UInt32.toNat_ofNat']
  omega

theorem wordAt_toNat (b0 b1 : BYTE) : (wordAt b0 b1).toNat = b0.toNat + 256 * b1.toNat := by
  have h0 := b0.toNat_lt
  have h1 := b1.toNat_lt
  unfold wordAt
  rw [UInt16.toNat_ofNat']
  omega

theorem dwordAt_byteOf (x : DWORD) :
    dwordAt (byteOf x.toNat 0) (byteOf x.toNat 1) (byteOf x.toNat 2) (byteOf x.toNat 3) = x := by
  apply UInt32.toNat_inj.1
  have := x.toNat_lt
  rw [dwordAt_toNat]
  simp only [byteOf_toNat]
  omega

theorem wordAt_byteOf (x : WORD) : wordAt (byteOf x.toNat 0) (byteOf x.toNat 1) = x := by
  apply UInt16.toNat_inj.1
  have := x.toNat_lt
  rw [wordAt_toNat]
  simp only [byteOf_toNat]
  omega

/-- The bytes of the word at four bytes are those four bytes. -/
theorem byteOf_dwordAt (b0 b1 b2 b3 : BYTE) :
    byteOf (dwordAt b0 b1 b2 b3).toNat 0 = b0 ∧ byteOf (dwordAt b0 b1 b2 b3).toNat 1 = b1 ∧
    byteOf (dwordAt b0 b1 b2 b3).toNat 2 = b2 ∧ byteOf (dwordAt b0 b1 b2 b3).toNat 3 = b3 := by
  have h0 := b0.toNat_lt
  have h1 := b1.toNat_lt
  have h2 := b2.toNat_lt
  have h3 := b3.toNat_lt
  refine ⟨?_, ?_, ?_, ?_⟩ <;> apply UInt8.toNat_inj.1 <;> rw [byteOf_toNat, dwordAt_toNat] <;> omega

theorem byteOf_wordAt (b0 b1 : BYTE) :
    byteOf (wordAt b0 b1).toNat 0 = b0 ∧ byteOf (wordAt b0 b1).toNat 1 = b1 := by
  have h0 := b0.toNat_lt
  have h1 := b1.toNat_lt
  refine ⟨?_, ?_⟩ <;> apply UInt8.toNat_inj.1 <;> rw [byteOf_toNat, wordAt_toNat] <;> omega

@[simp] theorem ntohl_htonl (x : DWORD) : ntohl (htonl x) = x := by
  unfold ntohl htonl
  obtain ⟨h0, h1, h2, h3⟩ := byteOf_dwordAt (byteOf x.toNat 3) (byteOf x.toNat 2) (byteOf x.toNat 1) (byteOf x.toNat 0)
  rw [h0, h1, h2, h3, dwordAt_byteOf]

@[simp] theorem ntohs_htons (x : WORD) : ntohs (htons x) = x := by
  unfold ntohs htons
  obtain ⟨h0, h1⟩ := byteOf_wordAt (byteOf x.toNat 1) (byteOf x.toNat 0)
  rw [h0, h1, wordAt_byteOf]

/-! ## The PDU header -/

structure PduCommHdr where
  dwMagic : DWORD
  wBodySize : WORD
  bCode : BYTE
  bReq : Bool
  bErr : Bool
  bReserved : Nat
  dwParam : DWORD
  deriving DecidableEq, Repr

def sizeofPduCommHdr : Nat := 12

/-- The byte holding `bReq`, `bErr` and `bReserved`, from the low bit up, after `bReq` and `bErr` are stored into it. -/
def storeFlags (old : BYTE) (bReq bErr : Bool) : BYTE :=
  UInt8.ofNat (old.toNat / 4 * 4 + bErr.toNat * 2 + bReq.toNat)

/-- The header at twelve bytes of memory. -/
def hdrAt : List BYTE → PduCommHdr
  | m0 :: m1 :: m2 :: m3 :: s0 :: s1 :: c :: f :: p0 :: p1 :: p2 :: p3 :: _ =>
    { dwMagic := dwordAt m0 m1 m2 m3, wBodySize := wordAt s0 s1, bCode := c, bReq := f.toNat % 2 == 1,
      bErr := f.toNat / 2 % 2 == 1, bReserved := f.toNat / 4, dwParam := dwordAt p0 p1 p2 p3 }
  | _ => { dwMagic := 0, wBodySize := 0, bCode := 0, bReq := false, bErr := false, bReserved := 0, dwParam := 0 }

/-- The twelve bytes left by storing the six fields over a header whose flag byte was `old`. -/
def hdrBytes (dwMagic : DWORD) (wBodySize : WORD) (bCode : BYTE) (bReq bErr : Bool) (dwParam : DWORD) (old : BYTE) :
    List BYTE :=
  dwordBytes dwMagic ++ wordBytes wBodySize ++ [bCode, storeFlags old bReq bErr] ++ dwordBytes dwParam

@[simp] theorem length_hdrBytes (m : DWORD) (s : WORD) (c : BYTE) (r e : Bool) (p : DWORD) (old : BYTE) :
    (hdrBytes m s c r e p old).length = sizeofPduCommHdr := rfl

theorem storeFlags_toNat (old : BYTE) (r e : Bool) :
    (storeFlags old r e).toNat = old.toNat / 4 * 4 + e.toNat * 2 + r.toNat := by
  have h := old.toNat_lt
  have hr := r.toNat_lt
  have he := e.toNat_lt
  unfold storeFlags
  rw [UInt8.toNat_ofNat']
  omega

/-- **The stored header reads back**: its six fields as stored, the reserved bits as they were. -/
theorem hdrAt_hdrBytes (m : DWORD) (s : WORD) (c : BYTE) (r e : Bool) (p : DWORD) (old : BYTE) (rest : List BYTE) :
    hdrAt (hdrBytes m s c r e p old ++ rest) =
      { dwMagic := m, wBodySize := s, bCode := c, bReq := r, bErr := e, bReserved := old.toNat / 4, dwParam := p } := by
  have hf := storeFlags_toNat old r e
  have hr := r.toNat_lt
  have he := e.toNat_lt
  have h1 : (storeFlags old r e).toNat % 2 = r.toNat := by omega
  have h2 : (storeFlags old r e).toNat / 2 % 2 = e.toNat := by omega
  have h3 : (storeFlags old r e).toNat / 4 = old.toNat / 4 := by omega
  simp only [hdrBytes, dwordBytes, wordBytes, List.cons_append, List.nil_append, hdrAt, dwordAt_byteOf, wordAt_byteOf,
    h1, h2, h3]
  cases r <;> cases e <;> rfl

/-- Only the first twelve bytes are the header. -/
theorem hdrAt_append (h rest : List BYTE) (hh : h.length = sizeofPduCommHdr) : hdrAt (h ++ rest) = hdrAt h := by
  match h, hh with
  | [_, _, _, _, _, _, _, _, _, _, _, _], _ => rfl

end DevMgr
