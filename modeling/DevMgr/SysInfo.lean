import DevMgr.GetProp
/-!
# SysInfo — the properties that a device is described by

`AdbCmdGetSysInfo::Execute` asks for the version, the brand and the model with one command object and has each answer
copied to its field of `RET_GET_SYSINFO`, whose bytes are those that `new` has returned.
-/
namespace DevMgr.AdbCmdGetSysInfo

open MiscUtils BufferItem CmdArgs AdbCmdGetProp

def sysinfoMaskOsname : DWORD := 0x0001
def sysinfoMaskOsver : DWORD := 0x0002
def sysinfoMaskBrand : DWORD := 0x0004
def sysinfoMaskModel : DWORD := 0x0008

def propOsver : List BYTE := ascii "ro.build.version.release"
def propBrand : List BYTE := ascii "ro.product.brand"
def propModel : List BYTE := ascii "ro.product.model"

/-- The result, the object of the queries, and the names that it was asked for. -/
structure SysInfoState where
  biResult : BufferItem
  cmd : AdbCmd
  queried : List (List BYTE)

/-- `GetResult` into a field. -/
def copyResult (biResult : BufferItem) (field : Nat) (cmd : AdbCmd) : BufferItem :=
  match cmd.getResult maxSysinfoItemLen with
  | none => biResult
  | some bs => biResult.write field bs

/-- One property, if its bit and the mask are not both zero. -/
def queryProp (dwMask bit : DWORD) (szName : List BYTE) (field : Nat) (q : PropQuery) (s : SysInfoState) :
    Except CmdFault SysInfoState :=
  if dwMask ||| bit ≠ 0 then match query s.cmd q with
    | .error e => .error e
    | .ok cmd => .ok ⟨copyResult s.biResult field cmd, cmd, s.queried ++ [szName]⟩
  else .ok s

/-- The result before the queries. -/
def fillHdr (dwMask : DWORD) (b : BufferItem) (pInfo : Nat) : BufferItem :=
  let b := b.writes [(pInfo, dwordBytes (.ofNat b.dataSize)), (pInfo + 4, dwordBytes (.ofNat errorSuccess)),
    (pInfo + sizeofRetCommHdr, dwordBytes dwMask)]
  if dwMask ||| sysinfoMaskOsname ≠ 0 then b.write (pInfo + offsetOsName) (ascii "Android" ++ [0]) else b

/-- `Execute`, which returns `ERROR_SUCCESS` whatever the queries return. -/
def execute (dwMask : DWORD) (fresh : Nat → BYTE) (osVer brand model : PropQuery) : Except CmdFault SysInfoState :=
  match allocPut .new sizeofRetGetSysinfo fresh with
  | .error e => .error e
  | .ok (b, pInfo) => do
    let s : SysInfoState := ⟨fillHdr dwMask b pInfo, newCmd, []⟩
    let s ← queryProp dwMask sysinfoMaskOsver propOsver (pInfo + offsetOsVer) osVer s
    let s ← queryProp dwMask sysinfoMaskBrand propBrand (pInfo + offsetBrand) brand s
    queryProp dwMask sysinfoMaskModel propModel (pInfo + offsetModel) model s

/-! ## What is asked for -/

def asked (dwMask : DWORD) : List (List BYTE) :=
  (if dwMask &&& sysinfoMaskOsver ≠ 0 then [propOsver] else []) ++
    (if dwMask &&& sysinfoMaskBrand ≠ 0 then [propBrand] else []) ++
    (if dwMask &&& sysinfoMaskModel ≠ 0 then [propModel] else [])

/-- The value of a property, cut to what its field has room for. -/
def cut (q : PropQuery) : List BYTE := (q.value.getD []).take (maxSysinfoItemLen - 1)

/-- The queries are those of the mask, each field is a string with the value of its property, and the observer reads
these values. -/
structure WellFormed (dwMask : DWORD) (fresh : Nat → BYTE) (osVer brand model : PropQuery) (s : SysInfoState) :
    Prop where
  queried : s.queried = asked dwMask
  szOsVer : s.biResult.Holds offsetOsVer (cut osVer ++ [0])
  szBrand : s.biResult.Holds offsetBrand (cut brand ++ [0])
  szModel : s.biResult.Holds offsetModel (cut model ++ [0])
  read : ∃ b, AdbCmd.resultCopy ⟨.new, s.biResult⟩ fresh = .ok b ∧
    DevTableMod.onExecuted .getSysinfo b = .ok (some (.sysInfo (cut model) (cut brand) (cut osVer)))

/-- The object gives something to a field. -/
def Copied (qs : List PropQuery) : Prop := 0 < (held qs).1 ∧ (held qs).1 ≤ maxSysinfoItemLen

/-- A query that cannot be made finds no value of another one to copy, and where nothing is copied the bytes that are in
the field already are the value and a zero. -/
structure Fills (fresh : Nat → BYTE) (field : Nat) (q : PropQuery) (qs : List PropQuery) : Prop where
  stale : ¬ q.Created → Copied qs → (held qs).2 = []
  kept : ¬ Copied (q :: qs) → ∀ j, j < (cut q ++ [0]).length → some (fresh (field + j)) = (cut q ++ [0])[j]?

/-- The commands whose result is well formed. -/
structure Fit (dwMask : DWORD) (fresh : Nat → BYTE) (osVer brand model : PropQuery) : Prop where
  mask : dwMask &&& sysinfoMaskOsver ≠ 0 ∧ dwMask &&& sysinfoMaskBrand ≠ 0 ∧ dwMask &&& sysinfoMaskModel ≠ 0
  hears : Hears osVer [] ∧ Hears brand [osVer] ∧ Hears model [brand, osVer]
  szOsVer : Fills fresh offsetOsVer osVer []
  szBrand : Fills fresh offsetBrand brand [osVer]
  szModel : Fills fresh offsetModel model [brand, osVer]

/-! ## Strings -/

theorem heard_zero : ∀ {qs : List PropQuery} {s : List BYTE}, heard qs = some s → 0 ∉ s
  | [], s, h => by cases h
  | q :: qs, s, h => by
    rw [heard] at h
    split at h
    · exact heard_zero h
    · split at h
      · cases h
        exact not_mem_takeWhile 0 _
      · split at h
        · exact heard_zero h
        · exact (cString_eq_some.1 h).1

theorem held_zero : ∀ qs : List PropQuery, 0 ∉ (held qs).2
  | [] => List.not_mem_nil
  | q :: qs => by
    rw [held]
    split
    · exact held_zero qs
    · split
      · exact List.not_mem_nil
      · rename_i s hs
        have h0 := heard_zero hs
        unfold answer
        split
        · exact List.not_mem_nil
        · split
          · exact fun h => h0 ((List.takeWhile_sublist _).subset (List.mem_of_mem_take h))
          · exact List.not_mem_nil

theorem cut_zero (q : PropQuery) : 0 ∉ cut q := by
  unfold cut PropQuery.value
  split
  · exact fun h => not_mem_takeWhile 0 _ ((List.takeWhile_sublist _).subset (List.mem_of_mem_take h))
  · simp

theorem length_cut (q : PropQuery) : (cut q ++ [0]).length ≤ maxSysinfoItemLen := by
  rw [List.length_append, List.length_singleton, cut, List.length_take]
  have : maxSysinfoItemLen = 32 := rfl
  omega

/-- **An answer that is copied is the value of its property.** -/
theorem held_of_copied {q : PropQuery} {qs : List PropQuery} (hc : q.Created) (h : Copied (q :: qs)) :
    (held (q :: qs)).2 = cut q := by
  by_cases hne : q.child.reads = []
  · have hcut : cut q = [] := by
      rw [cut, PropQuery.value, PropQuery.text_nil hne, if_neg fun h => absurd h.2.2 List.not_mem_nil]
      rfl
    rw [hcut, held, if_neg (not_not_intro hc)]
    split
    · rfl
    · unfold answer
      split
      · rfl
      · split
        · rw [hne]
          rfl
        · rfl
  · have hheld := (held_of_text qs hc hne).2
    obtain ⟨hpos, hle⟩ := h
    rw [cut, PropQuery.value]
    rw [hheld] at hpos hle ⊢
    by_cases herr : ascii "error" <:+: q.text
    · rw [if_pos herr, if_neg fun h => h.2.1 herr]
      rfl
    · rw [if_neg herr] at hpos hle ⊢
      by_cases hcr : 13 ∈ q.text
      · rw [if_pos hcr] at hle ⊢
        rw [if_pos ⟨hc, herr, hcr⟩, Option.getD_some, List.take_of_length_le]
        exact Nat.le_sub_one_of_lt hle
      · rw [if_neg hcr] at hpos
        exact absurd hpos (Nat.lt_irrefl 0)

/-! ## A field -/

section
variable {b : BufferItem} {field : Nat} {cmd : AdbCmd} {q : PropQuery} {qs : List PropQuery}

/-- Nothing outside the field is changed, and nothing of the item. -/
theorem copyResult_frame (ha : IsAfter cmd qs) (hin : field + maxSysinfoItemLen ≤ b.room) :
    (∀ i, i < field ∨ field + maxSysinfoItemLen ≤ i → (copyResult b field cmd).mem[i]? = b.mem[i]?) ∧
      (copyResult b field cmd).room = b.room ∧ (∀ n, IsResult b n → IsResult (copyResult b field cmd) n) := by
  unfold copyResult
  by_cases hle : (held qs).1 ≤ maxSysinfoItemLen
  · obtain ⟨bs, hbs, hlen, -⟩ := (ha.getResult maxSysinfoItemLen).2 hle
    rw [hbs]
    refine ⟨fun i hi => ?_, length_write (by omega), fun n h => h.writes [(field, bs)]⟩
    have hat : field ≤ b.mem.length := Nat.le_trans (Nat.le_add_right ..) hin
    exact getElem?_write hat bs (by omega)
  · rw [(ha.getResult maxSysinfoItemLen).1 (Nat.lt_of_not_le hle)]
    exact ⟨fun _ _ => rfl, rfl, fun _ h => h⟩

/-- Where nothing is given, the item has the bytes that it had. -/
theorem copyResult_kept (ha : IsAfter cmd qs) (hcop : ¬ Copied qs) : (copyResult b field cmd).mem = b.mem := by
  unfold copyResult
  by_cases hle : (held qs).1 ≤ maxSysinfoItemLen
  · obtain ⟨bs, hbs, hlen, -⟩ := (ha.getResult maxSysinfoItemLen).2 hle
    have hzero : (held qs).1 = 0 := Nat.eq_zero_of_not_pos fun hpos => hcop ⟨hpos, hle⟩
    rw [hbs, List.eq_nil_of_length_eq_zero (hlen.trans hzero)]
    exact mem_write_nil b field
  · rw [(ha.getResult maxSysinfoItemLen).1 (Nat.lt_of_not_le hle)]

theorem copyResult_copied (ha : IsAfter cmd qs) (hat : field ≤ b.mem.length) (hcop : Copied qs) :
    (copyResult b field cmd).Holds field ((held qs).2 ++ [0]) := by
  obtain ⟨bs, hbs, -, hstr⟩ := (ha.getResult maxSysinfoItemLen).2 hcop.2
  obtain ⟨t, rfl⟩ := hstr (Nat.ne_of_gt hcop.1)
  have h := holds_write hat ((held qs).2 ++ 0 :: t)
  rw [List.append_cons] at h
  rw [copyResult, hbs, List.append_cons]
  exact h.of_prefix

theorem cut_of_not_created (hc : ¬ q.Created) : cut q = [] := by
  rw [cut, PropQuery.value, if_neg fun h => hc h.1]
  rfl

/-- **The field has the value exactly when there is nothing stale in what is copied, or the value is there already.** -/
theorem copyResult_holds (ha : IsAfter cmd (q :: qs)) (hin : field + maxSysinfoItemLen ≤ b.room) :
    (copyResult b field cmd).Holds field (cut q ++ [0]) ↔
      (¬ q.Created → Copied qs → (held qs).2 = []) ∧ (¬ Copied (q :: qs) → b.Holds field (cut q ++ [0])) := by
  have hstale : ¬ q.Created → (held (q :: qs) = held qs ∧ (Copied (q :: qs) ↔ Copied qs)) := fun hc => by
    have heq : held (q :: qs) = held qs := if_pos hc
    rw [Copied, Copied, heq]
    exact ⟨rfl, Iff.rfl⟩
  by_cases hcop : Copied (q :: qs)
  · have hheld := copyResult_copied ha ((Nat.le_add_right ..).trans hin) hcop
    have heq : (copyResult b field cmd).Holds field (cut q ++ [0]) ↔ (held (q :: qs)).2 = cut q := by
      constructor
      · intro h
        exact Option.some.inj ((hheld.cString (held_zero _)).symm.trans (h.cString (cut_zero q)))
      · intro h
        rw [← h]
        exact hheld
    rw [heq]
    by_cases hc : q.Created
    · exact iff_of_true (held_of_copied hc hcop) ⟨fun h => absurd hc h, fun h => absurd hcop h⟩
    · rw [(hstale hc).1, cut_of_not_created hc]
      exact ⟨fun h => ⟨fun _ _ => h, fun hn => absurd hcop hn⟩, fun h => h.1 hc ((hstale hc).2.1 hcop)⟩
  · have hiff : (copyResult b field cmd).Holds field (cut q ++ [0]) ↔ b.Holds field (cut q ++ [0]) := by
      unfold Holds
      rw [copyResult_kept ha hcop]
    rw [hiff]
    exact ⟨fun h => ⟨fun hc hs => absurd ((hstale hc).2.2 hs) hcop, fun _ => h⟩, fun h => h.2 hcop⟩

end

/-! ## The command -/

theorem holds_congr {b b' : BufferItem} {o : Nat} {bs : List BYTE}
    (h : ∀ i, o ≤ i → i < o + bs.length → b'.mem[i]? = b.mem[i]?) : b'.Holds o bs ↔ b.Holds o bs := by
  unfold Holds
  refine forall₂_congr fun j hj => ?_
  rw [h _ (Nat.le_add_right o j) (Nat.add_lt_add_left hj o)]

section
variable {dwMask bit : DWORD} {szName : List BYTE} {field : Nat} {q : PropQuery} {qs : List PropQuery}
  {s : SysInfoState}

/-- The test of the bit, an or, is passed by every mask. -/
theorem queryProp_eq (hbit : bit ≠ 0) : queryProp dwMask bit szName field q s = match query s.cmd q with
    | .error e => .error e
    | .ok cmd => .ok ⟨copyResult s.biResult field cmd, cmd, s.queried ++ [szName]⟩ := by
  rw [queryProp, if_pos]
  rw [ne_eq, UInt32.or_eq_zero_iff]
  exact fun h => hbit h.2

theorem queryProp_ok (dwMask : DWORD) (szName : List BYTE) (field : Nat) (ha : IsAfter s.cmd qs) (hq : Hears q qs)
    (hbit : bit ≠ 0) :
    ∃ cmd, queryProp dwMask bit szName field q s = .ok ⟨copyResult s.biResult field cmd, cmd, s.queried ++ [szName]⟩ ∧
      IsAfter cmd (q :: qs) := by
  obtain ⟨cmd, hcmd, ha'⟩ := ha.query hq
  refine ⟨cmd, ?_, ha'⟩
  rw [queryProp_eq hbit, hcmd]

theorem queryProp_some {s' : SysInfoState} (h : queryProp dwMask bit szName field q s = .ok s') (ha : IsAfter s.cmd qs)
    (hbit : bit ≠ 0) : Hears q qs ∧ IsAfter s'.cmd (q :: qs) := by
  by_cases hq : Hears q qs
  · obtain ⟨cmd, hok, ha'⟩ := queryProp_ok dwMask szName field ha hq hbit
    rw [hok] at h
    cases h
    exact ⟨hq, ha'⟩
  · obtain ⟨e, he⟩ := ha.query_fault hq
    rw [queryProp_eq hbit, he] at h
    cases h

end

section
variable {dwMask : DWORD} {fresh : Nat → BYTE} {osVer brand model : PropQuery}

/-- From a place on, the bytes are still those that `new` has returned. -/
structure Blank (fresh : Nat → BYTE) (field : Nat) (b : BufferItem) : Prop where
  result : IsResult b sizeofRetGetSysinfo
  bytes : ∀ i, field ≤ i → i < sizeofRetGetSysinfo → b.mem[i]? = some (fresh i)

/-- The stores of the header and the name end in front of the fields. -/
theorem fillHdr_eq (dwMask : DWORD) (b : BufferItem) : ∃ stores, fillHdr dwMask b 0 = b.writes stores ∧
    ∀ st ∈ stores, st.1 + st.2.length ≤ offsetOsVer := by
  refine ⟨[(0, dwordBytes (.ofNat b.dataSize)), (4, dwordBytes (.ofNat errorSuccess)), (8, dwordBytes dwMask),
    (12, ascii "Android" ++ [0])], ?_, ?_⟩
  · rw [fillHdr, if_pos]
    · rfl
    · rw [ne_eq, UInt32.or_eq_zero_iff]
      exact fun h => absurd h.2 (by decide)
  · intro st hst
    simp only [List.mem_cons, List.not_mem_nil, or_false] at hst
    rcases hst with rfl | rfl | rfl | rfl
    · exact (by decide : 0 + 4 ≤ offsetOsVer)
    · exact (by decide : 4 + 4 ≤ offsetOsVer)
    · exact (by decide : 8 + 4 ≤ offsetOsVer)
    · decide

theorem allocPut_blank (dwMask : DWORD) (fresh : Nat → BYTE) :
    ∃ b, allocPut .new sizeofRetGetSysinfo fresh = .ok (b, 0) ∧ Blank fresh offsetOsVer (fillHdr dwMask b 0) := by
  obtain ⟨b, hb, hr, -⟩ := allocPut_isResult (b := .new) (fun h => absurd rfl h) (show 0 < sizeofRetGetSysinfo by
    decide) fresh
  have hmem : b.mem = newBytes fresh sizeofRetGetSysinfo := allocPut_mem hb
  obtain ⟨stores, hfill, hlow⟩ := fillHdr_eq dwMask b
  refine ⟨b, hb, ?_⟩
  rw [hfill]
  refine ⟨hr.writes stores, fun i hlo hhi => ?_⟩
  have hbyte : b.Holds i [fresh i] := by
    intro j hj
    obtain rfl : j = 0 := Nat.lt_one_iff.1 hj
    rw [hmem, newBytes, Nat.add_zero, List.getElem?_map, List.getElem?_range hhi]
    rfl
  refine hbyte.writes (fun st hst => ?_) (fun st hst => .inr ((hlow st hst).trans hlo)) 0 Nat.one_pos
  exact (Nat.le_of_add_right_le (hlow st hst)).trans (Nat.le_trans (by decide) hr.room)

/-- **What a query leaves in its field, and in the fields before and behind it.** -/
theorem Blank.copyResult {b : BufferItem} {field : Nat} (h : Blank fresh field b)
    (hsize : field + maxSysinfoItemLen ≤ sizeofRetGetSysinfo) {cmd : AdbCmd} {q : PropQuery} {qs : List PropQuery}
    (ha : IsAfter cmd (q :: qs)) :
    Blank fresh (field + maxSysinfoItemLen) (copyResult b field cmd) ∧
      ((AdbCmdGetSysInfo.copyResult b field cmd).Holds field (cut q ++ [0]) ↔ Fills fresh field q qs) ∧
      ∀ o bs, o + bs.length ≤ field → ((AdbCmdGetSysInfo.copyResult b field cmd).Holds o bs ↔ b.Holds o bs) := by
  have hin := hsize.trans h.result.room
  obtain ⟨hframe, -, hres⟩ := copyResult_frame ha hin
  refine ⟨⟨hres _ h.result, fun i hlo hhi => ?_⟩, ?_, fun o bs ho => holds_congr fun i _ hi => ?_⟩
  · rw [hframe i (.inr hlo), h.bytes i ((Nat.le_add_right ..).trans hlo) hhi]
  · have hheld : b.Holds field (cut q ++ [0]) ↔
        ∀ j, j < (cut q ++ [0]).length → some (fresh (field + j)) = (cut q ++ [0])[j]? := by
      refine forall₂_congr fun j hj => ?_
      have hlen := length_cut q
      rw [h.bytes _ (by omega) (by omega)]
    rw [copyResult_holds ha hin, hheld]
    exact ⟨fun h => ⟨h.1, h.2⟩, fun h => ⟨h.stale, h.kept⟩⟩
  · exact hframe i (.inl (hi.trans_le ho))

/-- A query and the copy of its answer. -/
theorem queryProp_field (dwMask bit : DWORD) (szName : List BYTE) (field : Nat) (s : SysInfoState) {q : PropQuery}
    {qs : List PropQuery} (h : Blank fresh field s.biResult) (hsize : field + maxSysinfoItemLen ≤ sizeofRetGetSysinfo)
    (ha : IsAfter s.cmd qs) (hq : Hears q qs) (hbit : bit ≠ 0) :
    ∃ s', queryProp dwMask bit szName field q s = .ok s' ∧ IsAfter s'.cmd (q :: qs) ∧
      s'.queried = s.queried ++ [szName] ∧ Blank fresh (field + maxSysinfoItemLen) s'.biResult ∧
      (s'.biResult.Holds field (cut q ++ [0]) ↔ Fills fresh field q qs) ∧
      ∀ o bs, o + bs.length ≤ field → (s'.biResult.Holds o bs ↔ s.biResult.Holds o bs) := by
  obtain ⟨cmd, hok, ha'⟩ := queryProp_ok dwMask szName field ha hq hbit
  obtain ⟨hb, hf, hk⟩ := h.copyResult hsize ha'
  exact ⟨_, hok, ha', rfl, hb, hf, hk⟩

theorem execute_eq (dwMask : DWORD) (fresh : Nat → BYTE) (osVer brand model : PropQuery) {b : BufferItem}
    (hb : allocPut .new sizeofRetGetSysinfo fresh = .ok (b, 0)) :
    execute dwMask fresh osVer brand model =
      ((queryProp dwMask sysinfoMaskOsver propOsver offsetOsVer osVer ⟨fillHdr dwMask b 0, newCmd, []⟩).bind
        (queryProp dwMask sysinfoMaskBrand propBrand offsetBrand brand)).bind
        (queryProp dwMask sysinfoMaskModel propModel offsetModel model) := by
  rw [execute, hb]
  simp only [Nat.zero_add, bind, Except.bind]
  split <;> rfl

/-- **A command whose queries all end returns**, and its result has the value of a property exactly where the field is
filled. -/
theorem execute_ok (dwMask : DWORD) (fresh : Nat → BYTE)
    (hears : Hears osVer [] ∧ Hears brand [osVer] ∧ Hears model [brand, osVer]) :
    ∃ s, execute dwMask fresh osVer brand model = .ok s ∧ s.queried = [propOsver, propBrand, propModel] ∧
      IsResult s.biResult sizeofRetGetSysinfo ∧
      (s.biResult.Holds offsetOsVer (cut osVer ++ [0]) ↔ Fills fresh offsetOsVer osVer []) ∧
      (s.biResult.Holds offsetBrand (cut brand ++ [0]) ↔ Fills fresh offsetBrand brand [osVer]) ∧
      (s.biResult.Holds offsetModel (cut model ++ [0]) ↔ Fills fresh offsetModel model [brand, osVer]) := by
  obtain ⟨b, hb, h₀⟩ := allocPut_blank dwMask fresh
  obtain ⟨s₁, hq₁, ha₁, hn₁, h₁, hf₁, -⟩ := queryProp_field dwMask sysinfoMaskOsver propOsver offsetOsVer
    ⟨fillHdr dwMask b 0, newCmd, []⟩ h₀ (by decide) isAfter_new hears.1 (by decide)
  obtain ⟨s₂, hq₂, ha₂, hn₂, h₂, hf₂, hk₂⟩ := queryProp_field dwMask sysinfoMaskBrand propBrand offsetBrand s₁
    h₁ (by decide) ha₁ hears.2.1 (by decide)
  obtain ⟨s₃, hq₃, ha₃, hn₃, h₃, hf₃, hk₃⟩ := queryProp_field dwMask sysinfoMaskModel propModel offsetModel s₂
    h₂ (by decide) ha₂ hears.2.2 (by decide)
  have hlen := length_cut osVer
  have hlen' := length_cut brand
  refine ⟨s₃, ?_, ?_, h₃.result, ?_, ?_, hf₃⟩
  · rw [execute_eq dwMask fresh osVer brand model hb, hq₁]
    dsimp only [Except.bind]
    rw [hq₂]
    exact hq₃
  · rw [hn₃, hn₂, hn₁]
    rfl
  · rw [hk₃ _ _ (Nat.le_trans (Nat.add_le_add_left hlen _) (by decide)), hk₂ _ _ (Nat.add_le_add_left hlen _), hf₁]
  · rw [hk₃ _ _ (Nat.add_le_add_left hlen' _), hf₂]

/-- A query that does not end is the end of the command. -/
theorem execute_some {s : SysInfoState} (h : execute dwMask fresh osVer brand model = .ok s) :
    Hears osVer [] ∧ Hears brand [osVer] ∧ Hears model [brand, osVer] := by
  obtain ⟨b, hb, -⟩ := allocPut_blank dwMask fresh
  rw [execute_eq dwMask fresh osVer brand model hb] at h
  obtain ⟨s₂, h₂, hq₃⟩ := bind_eq_ok.1 h
  obtain ⟨s₁, hq₁, hq₂⟩ := bind_eq_ok.1 h₂
  obtain ⟨hosVer, ha₁⟩ := queryProp_some hq₁ isAfter_new (by decide)
  obtain ⟨hbrand, ha₂⟩ := queryProp_some hq₂ ha₁ (by decide)
  exact ⟨hosVer, hbrand, (queryProp_some hq₃ ha₂ (by decide)).1⟩

/-- A string in a field of the result is what `OnExecuted` finds there. -/
theorem argString_of_copy {r b : BufferItem} (hr : IsResult r sizeofRetGetSysinfo) (hb : IsResult b sizeofRetGetSysinfo)
    (hmem : b.mem = r.content) {field : Nat} (hin : field + maxSysinfoItemLen ≤ sizeofRetGetSysinfo) {q : PropQuery}
    (h : r.Holds field (cut q ++ [0])) : SmartDeviceAdb.argString b field = .ok (cut q) := by
  have hlen := length_cut q
  exact argString_of_holds hb.data (hr.copy_holds hmem h (by omega)) (cut_zero q)

theorem asked_eq_iff : [propOsver, propBrand, propModel] = asked dwMask ↔ dwMask &&& sysinfoMaskOsver ≠ 0 ∧
    dwMask &&& sysinfoMaskBrand ≠ 0 ∧ dwMask &&& sysinfoMaskModel ≠ 0 := by
  have hlen : (asked dwMask).length = (if dwMask &&& sysinfoMaskOsver ≠ 0 then 1 else 0) +
      (if dwMask &&& sysinfoMaskBrand ≠ 0 then 1 else 0) + (if dwMask &&& sysinfoMaskModel ≠ 0 then 1 else 0) := by
    unfold asked
    simp only [List.length_append, apply_ite List.length, List.length_singleton, List.length_nil]
  constructor
  · intro h
    rw [← h] at hlen
    have hthree : [propOsver, propBrand, propModel].length = 3 := rfl
    rw [hthree] at hlen
    split_ifs at hlen <;> first | omega | (refine ⟨?_, ?_, ?_⟩ <;> assumption)
  · rintro ⟨h₁, h₂, h₃⟩
    rw [asked, if_pos h₁, if_pos h₂, if_pos h₃]
    rfl

/-- **The result is well formed exactly when** the mask asks for all three properties, every query ends, and no field
keeps what was there before, or gets what the query before it has left. -/
theorem execute_wellFormed_iff (dwMask : DWORD) (fresh fresh' : Nat → BYTE) (osVer brand model : PropQuery) :
    (∃ s, execute dwMask fresh osVer brand model = .ok s ∧ WellFormed dwMask fresh' osVer brand model s) ↔
      Fit dwMask fresh osVer brand model := by
  constructor
  · rintro ⟨s, hs, hwf⟩
    have hears := execute_some hs
    obtain ⟨s', hs', hq, -, hf₁, hf₂, hf₃⟩ := execute_ok dwMask fresh hears
    rw [hs] at hs'
    cases hs'
    exact ⟨asked_eq_iff.1 (hq ▸ hwf.queried), hears, hf₁.1 hwf.szOsVer, hf₂.1 hwf.szBrand, hf₃.1 hwf.szModel⟩
  · intro h
    obtain ⟨s, hs, hq, hr, hf₁, hf₂, hf₃⟩ := execute_ok dwMask fresh h.hears
    obtain ⟨b, hb, hbr, hmem⟩ := @resultCopy_isResult _ ⟨.new, s.biResult⟩ hr (by decide) fresh'
    have hosVer := hf₁.2 h.szOsVer
    have hbrand := hf₂.2 h.szBrand
    have hmodel := hf₃.2 h.szModel
    refine ⟨s, hs, hq.trans (asked_eq_iff.2 h.mask), hosVer, hbrand, hmodel, b, hb, ?_⟩
    have hsize : b.dataSize = sizeofRetGetSysinfo := hbr.size
    rw [DevTableMod.onExecuted, hsize, if_neg (Nat.lt_irrefl _), argString_of_copy hr hbr hmem (by decide) hmodel,
      argString_of_copy hr hbr hmem (by decide) hbrand, argString_of_copy hr hbr hmem (by decide) hosVer]
    rfl

end

def version : PropQuery := oneLine (ascii "4.4.2\r\n") (by decide)
def nexus : PropQuery := oneLine (ascii "Nexus\r\n") (by decide)

/-- **A brand that cannot be asked for**: its field has the version that was asked for before. -/
theorem staleVersion_not_wellFormed : ∃ s, execute 14 (fun _ => 205) version noChild nexus = .ok s ∧
    ∀ fresh, ¬ WellFormed 14 fresh version noChild nexus s := by
  obtain ⟨s, hs, -, -, -, hf, -⟩ := @execute_ok version noChild nexus 14 (fun _ => 205)
    ⟨by decide, by decide, by decide⟩
  refine ⟨s, hs, fun fresh hwf => ?_⟩
  have hstale := (hf.1 hwf.szBrand).stale (by decide) ⟨by decide, by decide⟩
  exact absurd hstale (by decide)

end DevMgr.AdbCmdGetSysInfo
