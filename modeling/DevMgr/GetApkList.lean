import DevMgr.EnumDevices
/-!
# GetApkList — the list of applications, from the text that the service writes

`AdbCmdGetApkList::ProcessResult` walks a pointer through the text, past the end of a string too where `p++` takes it
there: a pointer is what stands from it to the end of the allocation.  What `_access` answers for an icon is given, and
the icons that are pulled are returned beside the result.
-/
namespace DevMgr

open MiscUtils BufferItem

def maxAppListNum : Nat := 256
def maxAppNameLen : Nat := 64
def maxAppLongnameLen : Nat := 128
def maxAppIconnameLen : Nat := 128
def maxAppVersionLen : Nat := 16
def maxPath : Nat := 256

/-! The places of the members of `APP_INFO`, behind `szName`. -/

def offsetLongName : Nat := maxAppNameLen
def offsetIconName : Nat := offsetLongName + maxAppLongnameLen
def offsetVersion : Nat := offsetIconName + maxAppIconnameLen
def offsetDwVersion : Nat := offsetVersion + maxAppVersionLen
def sizeofAppInfo : Nat := offsetDwVersion + 4

/-- `sizeof(RET_GET_APPLIST)`, and its part before `AppInfo`. -/
def sizeofAppListHdr : Nat := 12
def sizeofRetGetApplist : Nat := sizeofAppListHdr + sizeofAppInfo

/-- `_snprintf` of strings, given one behind the other. -/
def snprintf (str : List BYTE) (size : Nat) : List BYTE := str.take (size - 1) ++ [0]

namespace AdbCmdGetApkList

/-- The pointer to `q`, which is the rest of the string `s` at `p`. -/
def advance (p s q : List BYTE) : List BYTE := p.drop (s.length - q.length)

/-- `ParseUnquotedString(p, '\t', .., p)` and `p++`: what is copied, and the pointer. -/
def parseField (p : List BYTE) (cbOut : Nat) : Except CmdFault (List BYTE × List BYTE) :=
  match cString p with
  | none => .error .overread
  | some s =>
    let (szOut, q) := parseUnquotedString s 9 cbOut
    .ok (szOut, (advance p s (q.getD s)).drop 1)

/-- `APP_INFO` as its reader finds it. -/
structure AppInfo where
  szName : List BYTE
  szLongName : List BYTE
  szIconName : List BYTE
  szVersion : List BYTE
  dwVersion : DWORD
  deriving DecidableEq, Repr

def appInfoAt (mem : List BYTE) (at_ : Nat) : Option AppInfo := do
  let szName ← cString (mem.drop at_)
  let szLongName ← cString (mem.drop (at_ + offsetLongName))
  let szIconName ← cString (mem.drop (at_ + offsetIconName))
  let szVersion ← cString (mem.drop (at_ + offsetVersion))
  let dwVersion ← dwordField mem (at_ + offsetDwVersion)
  return { szName, szLongName, szIconName, szVersion, dwVersion }

/-- What a pass of the loop copies to `APP_INFO`, and the pointer after it. -/
structure AppFields where
  szName : List BYTE
  szLongName : List BYTE
  szVersion : List BYTE
  dwVersion : DWORD
  p : List BYTE
  deriving DecidableEq, Repr

/-- The readings of a pass; `none` where the text has no further record. -/
def parseApp (p : List BYTE) : Except CmdFault (Option AppFields) :=
  match cString p with
  | none => .error .overread
  | some s => match matchStringAnywhere s [13, 13, 10] with
    | none => .ok none
    | some q => match parseField (advance p s q) maxAppNameLen with
      | .error e => .error e
      | .ok (szName, p) => match parseField p maxAppLongnameLen with
        | .error e => .error e
        | .ok (szLongName, p) => match parseField p maxAppVersionLen with
          | .error e => .error e
          | .ok (szVersion, p) => match cString p with
            | none => .error .overread
            | some s =>
              let (_, dwVersion, q) := parseDWord s false
              .ok (some { szName, szLongName, szVersion, dwVersion, p := advance p s q })

/-- `szIconName`: `"%s.png"` of the string in `szLongName`. -/
def AppFields.szIconName (a : AppFields) : List BYTE :=
  snprintf (a.szLongName.takeWhile (· ≠ 0) ++ ascii ".png") maxAppIconnameLen

/-- `bufH`: `"%s%s"` of the directory and `szIconName`. -/
def AppFields.bufH (iconDir : List BYTE) (a : AppFields) : List BYTE :=
  snprintf (iconDir ++ a.szIconName.takeWhile (· ≠ 0)) maxPath

/-- The stores of a pass, in their order; `dwCount` counts with `i`. -/
def storeApp (pAppList : Nat) (b : BufferItem) (i : Nat) (a : AppFields) : BufferItem :=
  let pAppInfo := pAppList + sizeofAppListHdr + sizeofAppInfo * i
  let b := b.write pAppInfo a.szName
  let b := b.write (pAppInfo + offsetLongName) a.szLongName
  let b := b.write (pAppInfo + offsetVersion) a.szVersion
  let b := b.write (pAppInfo + offsetDwVersion) (dwordBytes a.dwVersion)
  let b := b.write (pAppInfo + offsetIconName) a.szIconName
  b.write (pAppList + 8) (dwordBytes (.ofNat (i + 1)))

/-- The loop, with `n` passes to go; `access i` is whether the icon of the application `i` is on the host.  The result,
and the paths of the icons that are pulled. -/
def readApps (access : Nat → Bool) (iconDir : List BYTE) (pAppList : Nat) :
    Nat → Nat → BufferItem → List BYTE → Except CmdFault (BufferItem × List (List BYTE))
  | 0, _, b, _ => .ok (b, [])
  | n + 1, i, b, p => match parseApp p with
    | .error e => .error e
    | .ok none => .ok (b, [])
    | .ok (some a) => match (storeApp pAppList b i a).put sizeofAppInfo with
      | .error e => .error (.assertion e)
      | .ok (b, _) => match readApps access iconDir pAppList n (i + 1) b a.p with
        | .error e => .error e
        | .ok (b, pulled) => .ok (b, if access i then pulled else a.bufH iconDir :: pulled)

def processResult (access : Nat → Bool) (iconDir : List BYTE) (fresh : Nat → BYTE) (cmd : AdbCmd) :
    Except CmdFault (AdbCmd × List (List BYTE)) :=
  match cmd.biResult.alloc (sizeofRetGetApplist + (maxAppListNum - 1) * sizeofAppInfo) fresh with
  | .error e => .error (.assertion e)
  | .ok b => match b.put sizeofAppListHdr with
    | .error e => .error (.assertion e)
    | .ok (b, pAppList) =>
      let b := (b.write (pAppList + 4) (dwordBytes (.ofNat errorSuccess))).write (pAppList + 8) (dwordBytes 0)
      let szOutput := cmd.biOutput.mem.drop cmd.biOutput.data
      match cString szOutput with
      | none => .error .overread
      | some s =>
        let (_, nCnt, q) := parseDWord s false
        match readApps access iconDir pAppList (min nCnt.toNat maxAppListNum) 0 b (advance szOutput s q) with
        | .error e => .error e
        | .ok (b, pulled) =>
          .ok ({ cmd with biResult := b.write pAppList (dwordBytes (.ofNat b.dataSize)) }, pulled)

end AdbCmdGetApkList

/-- `dwCount` and `AppInfo[i]` of the result. -/
def AdbCmd.dwCount (cmd : AdbCmd) : Option DWORD := dwordField (cmd.biResult.mem.drop cmd.biResult.data) 8
def AdbCmd.appInfo (cmd : AdbCmd) (i : Nat) : Option AdbCmdGetApkList.AppInfo :=
  AdbCmdGetApkList.appInfoAt (cmd.biResult.mem.drop cmd.biResult.data) (sizeofAppListHdr + sizeofAppInfo * i)

namespace AdbCmdGetApkList

/-! ## The lists that the service writes -/

def Plain (c : BYTE) : Prop := c ≠ 9 ∧ c ≠ 13 ∧ c ≠ 10 ∧ c ≠ 0

instance : DecidablePred Plain := fun c => inferInstanceAs (Decidable (c ≠ 9 ∧ c ≠ 13 ∧ c ≠ 10 ∧ c ≠ 0))

/-- An application whose strings fit their places. -/
structure AppRecord where
  szName : List BYTE
  szLongName : List BYTE
  szVersion : List BYTE
  dwVersion : DWORD
  szName_ok : (∀ c ∈ szName, Plain c) ∧ szName.length < maxAppNameLen
  szLongName_ok : (∀ c ∈ szLongName, Plain c) ∧ szLongName.length < maxAppLongnameLen
  szVersion_ok : (∀ c ∈ szVersion, Plain c) ∧ szVersion.length < maxAppVersionLen

def AppRecord.render (a : AppRecord) : List BYTE :=
  [13, 13, 10] ++ (a.szName ++ 9 :: (a.szLongName ++ 9 :: (a.szVersion ++ 9 :: decimal a.dwVersion.toNat)))

def AppRecord.szIconName (a : AppRecord) : List BYTE := (a.szLongName ++ ascii ".png").take (maxAppIconnameLen - 1)

/-- What the result is to hold for it: the name of the icon is made of the package's. -/
def AppRecord.info (a : AppRecord) : AppInfo where
  szName := a.szName
  szLongName := a.szLongName
  szIconName := a.szIconName
  szVersion := a.szVersion
  dwVersion := a.dwVersion

/-- The text: the count, the records, and a last line end or not. -/
def renderList (apps : List AppRecord) (closed : Bool) : List BYTE :=
  decimal apps.length ++ apps.flatMap AppRecord.render ++ if closed then [13, 13, 10] else []

theorem cString_append {s : List BYTE} (h : 0 ∉ s) (t : List BYTE) : cString (s ++ 0 :: t) = some s :=
  cString_eq_some.2 ⟨h, t, rfl⟩

theorem advance_append (u q t : List BYTE) : advance (u ++ q ++ t) (u ++ q) q = q ++ t := by
  rw [advance, List.length_append, Nat.add_sub_cancel, List.append_assoc, List.drop_left]

theorem zero_notMem_field {f s : List BYTE} (hf : ∀ c ∈ f, Plain c) (hs : 0 ∉ s) : 0 ∉ f ++ 9 :: s := by
  intro h
  rcases List.mem_append.1 h with h | h
  · exact (hf 0 h).2.2.2 rfl
  · rcases List.mem_cons.1 h with h | h
    · cases h
    · exact hs h

/-- **A field is read to its tab.** -/
theorem parseField_append {f s : List BYTE} {cbOut : Nat} (hf : ∀ c ∈ f, Plain c) (hlen : f.length < cbOut) (hs : 0 ∉ s)
    (t : List BYTE) : parseField (f ++ 9 :: s ++ 0 :: t) cbOut = .ok (f ++ [0], s ++ 0 :: t) := by
  have h9 : (9 : BYTE) ∉ f := fun h => (hf 9 h).1 rfl
  rw [parseField, cString_append (zero_notMem_field hf hs)]
  dsimp only
  rw [parseUnquotedString_of_free h9, Option.getD_some, advance_append, List.take_of_length_le (by omega)]
  rfl

theorem zero_notMem_decimal (n : Nat) {s : List BYTE} (hs : 0 ∉ s) : 0 ∉ decimal n ++ s := by
  intro h
  rcases List.mem_append.1 h with h | h
  · cases isDigit_of_mem_decimal h
  · exact hs h

/-- What a pass reads of a record. -/
def AppRecord.fields (a : AppRecord) (p : List BYTE) : AppFields where
  szName := a.szName ++ [0]
  szLongName := a.szLongName ++ [0]
  szVersion := a.szVersion ++ [0]
  dwVersion := a.dwVersion
  p := p

/-- **A record is read to its end.** -/
theorem parseApp_render (a : AppRecord) {s : List BYTE} (hs : ∀ c ∈ s.head?, isDigit c = false ∧ c ≠ 32) (h0 : 0 ∉ s)
    (t : List BYTE) : parseApp (a.render ++ s ++ 0 :: t) = .ok (some (a.fields (s ++ 0 :: t))) := by
  obtain ⟨hname, hname'⟩ := a.szName_ok
  obtain ⟨hlong, hlong'⟩ := a.szLongName_ok
  obtain ⟨hver, hver'⟩ := a.szVersion_ok
  have hd := zero_notMem_decimal a.dwVersion.toNat h0
  have hv := zero_notMem_field hver hd
  have hl := zero_notMem_field hlong hv
  have hn := zero_notMem_field hname hl
  have hr : 0 ∉ [13, 13, 10] ++ (a.szName ++ 9 :: (a.szLongName ++ 9 :: (a.szVersion ++ 9 ::
      (decimal a.dwVersion.toNat ++ s)))) := by
    intro h
    rcases List.mem_append.1 h with h | h
    · exact absurd h (by decide)
    · exact hn h
  have hrender : a.render ++ s = [13, 13, 10] ++ (a.szName ++ 9 :: (a.szLongName ++ 9 :: (a.szVersion ++ 9 ::
      (decimal a.dwVersion.toNat ++ s)))) := by
    simp [AppRecord.render]
  rw [hrender, parseApp, cString_append hr]
  dsimp only
  rw [matchStringAnywhere_append]
  dsimp only
  rw [advance_append, parseField_append hname hname' hl]
  dsimp only
  rw [parseField_append hlong hlong' hv]
  dsimp only
  rw [parseField_append hver hver' hd]
  dsimp only
  rw [cString_append hd]
  dsimp only
  rw [parseDWord_decimal _ hs]
  dsimp only
  rw [advance_append, UInt32.ofNat_toNat]
  rfl

/-- The result has an application at a place. -/
structure AppAt (b : BufferItem) (pAppInfo : Nat) (a : AppRecord) : Prop where
  szName : b.Holds pAppInfo (a.szName ++ [0])
  szLongName : b.Holds (pAppInfo + offsetLongName) (a.szLongName ++ [0])
  szIconName : b.Holds (pAppInfo + offsetIconName) (a.szIconName ++ [0])
  szVersion : b.Holds (pAppInfo + offsetVersion) (a.szVersion ++ [0])
  dwVersion : b.Holds (pAppInfo + offsetDwVersion) (dwordBytes a.dwVersion)

/-- What stands in the header but for `dwCount`, and in the first `i` places, is kept. -/
def Keeps (i : Nat) (b b' : BufferItem) : Prop :=
  ∀ o bs, o + bs.length ≤ 8 ∨ sizeofAppListHdr ≤ o ∧ o + bs.length ≤ sizeofAppListHdr + sizeofAppInfo * i →
    b.Holds o bs → b'.Holds o bs

theorem offsets : sizeofAppListHdr = 12 ∧ offsetLongName = 64 ∧ offsetIconName = 192 ∧ offsetVersion = 320 ∧
    offsetDwVersion = 336 ∧ sizeofAppInfo = 340 := by
  decide

theorem AppRecord.lengths (a : AppRecord) : (a.szName ++ [0]).length ≤ 64 ∧ (a.szLongName ++ [0]).length ≤ 128 ∧
    (a.szIconName ++ [0]).length ≤ 128 ∧ (a.szVersion ++ [0]).length ≤ 16 ∧ (dwordBytes a.dwVersion).length = 4 := by
  simp only [List.length_append, List.length_singleton]
  refine ⟨a.szName_ok.2, a.szLongName_ok.2, ?_, a.szVersion_ok.2, rfl⟩
  exact Nat.succ_le_succ (List.length_take_le _ _)

theorem AppAt.keep {b b' : BufferItem} {a : AppRecord} {at_ : Nat} (h : AppAt b at_ a)
    (hk : ∀ o bs, at_ ≤ o → o + bs.length ≤ at_ + sizeofAppInfo → b.Holds o bs → b'.Holds o bs) : AppAt b' at_ a := by
  obtain ⟨h1, h2, h3, h4, h5⟩ := h
  obtain ⟨l1, l2, l3, l4, l5⟩ := a.lengths
  obtain ⟨o1, o2, o3, o4, o5, o6⟩ := offsets
  exact ⟨hk _ _ (by omega) (by omega) h1, hk _ _ (by omega) (by omega) h2, hk _ _ (by omega) (by omega) h3,
    hk _ _ (by omega) (by omega) h4, hk _ _ (by omega) (by omega) h5⟩

theorem AppRecord.fields_szIconName (a : AppRecord) (p : List BYTE) :
    (a.fields p).szIconName = a.szIconName ++ [0] := by
  have h0 : (0 : BYTE) ∉ a.szLongName := fun h => (a.szLongName_ok.1 0 h).2.2.2 rfl
  show snprintf ((a.szLongName ++ 0 :: []).takeWhile (· ≠ 0) ++ ascii ".png") maxAppIconnameLen = _
  rw [takeWhile_ne_zero h0]
  rfl

/-- The stores of a pass. -/
def AppRecord.stores (a : AppRecord) (i : Nat) : List (Nat × List BYTE) :=
  let pAppInfo := sizeofAppListHdr + sizeofAppInfo * i
  [(pAppInfo, a.szName ++ [0]), (pAppInfo + offsetLongName, a.szLongName ++ [0]),
    (pAppInfo + offsetVersion, a.szVersion ++ [0]), (pAppInfo + offsetDwVersion, dwordBytes a.dwVersion),
    (pAppInfo + offsetIconName, a.szIconName ++ [0]), (8, dwordBytes (.ofNat (i + 1)))]

theorem storeApp_eq (b : BufferItem) (i : Nat) (a : AppRecord) (p : List BYTE) :
    storeApp 0 b i (a.fields p) = b.writes (a.stores i) := by
  unfold storeApp
  dsimp only
  rw [a.fields_szIconName p, Nat.zero_add, Nat.zero_add]
  rfl

theorem AppRecord.stores_apart (a : AppRecord) (i : Nat) : (a.stores i).Pairwise Apart := by
  obtain ⟨l1, l2, l3, l4, l5⟩ := a.lengths
  obtain ⟨o1, o2, o3, o4, o5, o6⟩ := offsets
  have hcnt : (dwordBytes (.ofNat (i + 1))).length = 4 := rfl
  unfold AppRecord.stores
  simp only [List.pairwise_cons, List.mem_cons, List.not_mem_nil, or_false, forall_eq_or_imp, forall_eq, Apart,
    List.Pairwise.nil, and_true, false_implies, implies_true]
  omega

theorem AppRecord.stores_within (a : AppRecord) {b : BufferItem} {i : Nat}
    (hroom : sizeofAppListHdr + sizeofAppInfo * i + sizeofAppInfo ≤ b.room) : ∀ s ∈ a.stores i, s.1 ≤ b.room := by
  obtain ⟨o1, o2, o3, o4, o5, o6⟩ := offsets
  unfold AppRecord.stores
  simp only [List.mem_cons, List.not_mem_nil, or_false, forall_eq_or_imp, forall_eq]
  omega

/-- **The stores of a pass** put the application at its place and the count in the header, and keep the rest. -/
theorem storeApp_spec {b : BufferItem} {i : Nat} (hroom : sizeofAppListHdr + sizeofAppInfo * i + sizeofAppInfo ≤ b.room)
    (a : AppRecord) : AppAt (b.writes (a.stores i)) (sizeofAppListHdr + sizeofAppInfo * i) a ∧
      Keeps i b (b.writes (a.stores i)) ∧ (b.writes (a.stores i)).Holds 8 (dwordBytes (.ofNat (i + 1))) := by
  have hin := a.stores_within hroom
  have hall := holds_writes hin (a.stores_apart i)
  have hkeep : Keeps i b (b.writes (a.stores i)) := by
    intro o bs ho hb
    apply hb.writes hin
    obtain ⟨o1, o2, o3, o4, o5, o6⟩ := offsets
    have hcnt : (dwordBytes (.ofNat (i + 1))).length = 4 := rfl
    unfold AppRecord.stores Apart
    simp only [List.mem_cons, List.not_mem_nil, or_false, forall_eq_or_imp, forall_eq]
    omega
  generalize b.writes (a.stores i) = b' at hall hkeep ⊢
  simp only [AppRecord.stores, List.mem_cons, List.not_mem_nil, or_false, forall_eq_or_imp, forall_eq] at hall
  obtain ⟨hname, hlong, hver, hdw, hicon, hcnt⟩ := hall
  exact ⟨⟨hname, hlong, hicon, hver, hdw⟩, hkeep, hcnt⟩

theorem Keeps.trans {b b' b'' : BufferItem} {i j : Nat} (h : Keeps i b b') (h' : Keeps j b' b'') (hij : i ≤ j) :
    Keeps i b b'' := by
  intro o bs ho hb
  have hmul := Nat.mul_le_mul_left sizeofAppInfo hij
  apply h' o bs (by omega)
  exact h o bs ho hb

theorem closing_head (closed : Bool) (apps : List AppRecord) :
    ∀ c ∈ (apps.flatMap AppRecord.render ++ if closed then [13, 13, 10] else []).head?,
      isDigit c = false ∧ c ≠ 32 := by
  intro c hc
  have hc' : c = 13 := by
    cases apps with
    | nil =>
      cases closed with
      | true => exact (Option.some.inj hc).symm
      | false => cases hc
    | cons a apps => exact (Option.some.inj hc).symm
  subst hc'
  decide

theorem zero_notMem_records (closed : Bool) : ∀ (apps : List AppRecord),
    0 ∉ apps.flatMap AppRecord.render ++ if closed then [13, 13, 10] else []
  | [] => by
    cases closed with
    | true => decide
    | false => decide
  | a :: apps => by
    have ih := zero_notMem_records closed apps
    have h := zero_notMem_field a.szName_ok.1 (zero_notMem_field a.szLongName_ok.1
      (zero_notMem_field a.szVersion_ok.1 (zero_notMem_decimal a.dwVersion.toNat ih)))
    intro hm
    have hsplit : (a :: apps).flatMap AppRecord.render ++ (if closed then [13, 13, 10] else []) =
        [13, 13, 10] ++ (a.szName ++ 9 :: (a.szLongName ++ 9 :: (a.szVersion ++ 9 :: (decimal a.dwVersion.toNat ++
          (apps.flatMap AppRecord.render ++ if closed then [13, 13, 10] else []))))) := by
      simp [AppRecord.render]
    rw [hsplit] at hm
    rcases List.mem_append.1 hm with hm | hm
    · exact absurd hm (by decide)
    · exact h hm

/-- What the loop leaves: the applications at their places, their number in the header, and the rest kept. -/
structure Listed (b b' : BufferItem) (i : Nat) (apps : List AppRecord) : Prop where
  app : ∀ k a, apps[k]? = some a → AppAt b' (sizeofAppListHdr + sizeofAppInfo * (i + k)) a
  count : b'.Holds 8 (dwordBytes (.ofNat (i + apps.length)))
  keeps : Keeps i b b'
  data : b'.data = b.data
  dataLen : b'.dataLen = b.dataLen + sizeofAppInfo * apps.length
  room : b.room ≤ b'.room

variable (access : Nat → Bool) (iconDir : List BYTE)

/-- **The loop over the records of a list**, from the place `i` on. -/
theorem readApps_render (closed : Bool) (t : List BYTE) (apps : List AppRecord) {b : BufferItem} {i : Nat}
    (hh : b.head = true) (ht : b.tail = sizeofAppListHdr + sizeofAppInfo * i)
    (hroom : sizeofAppListHdr + sizeofAppInfo * (i + apps.length) ≤ b.room) (hcnt : b.Holds 8 (dwordBytes (.ofNat i))) :
    ∃ b' pulled, readApps access iconDir 0 apps.length i b
        ((apps.flatMap AppRecord.render ++ if closed then [13, 13, 10] else []) ++ 0 :: t) = .ok (b', pulled) ∧
      Listed b b' i apps := by
  induction apps generalizing b i with
  | nil => exact ⟨b, [], rfl, fun k a hk => (by cases hk), hcnt, fun _ _ _ h => h, rfl, rfl, Nat.le_refl _⟩
  | cons a apps ih =>
    rw [List.length_cons, Nat.mul_add, Nat.mul_succ] at hroom
    have hroom₁ : sizeofAppListHdr + sizeofAppInfo * i + sizeofAppInfo ≤ b.room := by omega
    obtain ⟨happ, hkeep, hcnt₁⟩ := storeApp_spec hroom₁ a
    have hge := length_writes_ge b (a.stores i)
    obtain ⟨hhead, hdata, htail, hdataLen⟩ := writes_keeps b (a.stores i)
    obtain ⟨b₁, hb₁⟩ : ∃ b₁, b.writes (a.stores i) = b₁ := ⟨_, rfl⟩
    rw [hb₁] at happ hkeep hcnt₁ hge hhead hdata htail hdataLen
    have hput := put_of_room (hhead.trans hh) (show b₁.tail + sizeofAppInfo ≤ b₁.room by omega)
    obtain ⟨b', pulled, hloop, hl⟩ := ih (i := i + 1)
      (b := { b₁ with tail := b₁.tail + sizeofAppInfo, dataLen := b₁.dataLen + sizeofAppInfo }) (hhead.trans hh)
      (by rw [htail, ht, Nat.mul_succ, Nat.add_assoc])
      (by
        rw [Nat.mul_add, Nat.mul_succ]
        exact Nat.le_trans (by omega) hge) hcnt₁
    have hsplit : (a :: apps).flatMap AppRecord.render ++ (if closed then [13, 13, 10] else []) ++ 0 :: t =
        a.render ++ (apps.flatMap AppRecord.render ++ if closed then [13, 13, 10] else []) ++ 0 :: t := by
      rw [List.flatMap_cons, List.append_assoc a.render]
    refine ⟨b', if access i then pulled else (a.fields []).bufH iconDir :: pulled, ?_, ⟨?_, ?_, ?_, ?_, ?_, ?_⟩⟩
    · rw [hsplit, List.length_cons, readApps, parseApp_render a (closing_head closed apps)
        (zero_notMem_records closed apps)]
      dsimp only
      rw [storeApp_eq, hb₁, hput]
      dsimp only [AppRecord.fields]
      rw [hloop]
      rfl
    · intro k a' hk
      cases k with
      | zero =>
        cases Option.some.inj hk
        exact happ.keep fun o bs ho hlen => hl.keeps o bs (.inr (by rw [Nat.mul_succ, Nat.add_zero] at *; omega))
      | succ k =>
        have hk' := hl.app k a' hk
        rw [Nat.add_right_comm i 1 k] at hk'
        exact hk'
    · rw [List.length_cons, Nat.add_comm apps.length, ← Nat.add_assoc]
      exact hl.count
    · exact hkeep.trans hl.keeps (Nat.le_succ i)
    · rw [hl.data, hdata]
    · rw [hl.dataLen, List.length_cons, Nat.mul_succ, hdataLen]
      dsimp only
      omega
    · exact hge.trans hl.room

theorem AppRecord.szIconName_zero (a : AppRecord) : 0 ∉ a.szIconName := by
  intro h
  rcases List.mem_append.1 (List.mem_of_mem_take h) with h | h
  · exact (a.szLongName_ok.1 0 h).2.2.2 rfl
  · exact absurd h (by decide)

theorem AppAt.read {b : BufferItem} {at_ : Nat} {a : AppRecord} (h : AppAt b at_ a) :
    appInfoAt b.mem at_ = some a.info := by
  unfold appInfoAt
  rw [h.szName.cString fun h0 => (a.szName_ok.1 0 h0).2.2.2 rfl,
    h.szLongName.cString fun h0 => (a.szLongName_ok.1 0 h0).2.2.2 rfl, h.szIconName.cString a.szIconName_zero,
    h.szVersion.cString fun h0 => (a.szVersion_ok.1 0 h0).2.2.2 rfl, dwordField_of_holds h.dwVersion]
  rfl

/-- The result is allocated and its header stored; the rest is the loop, and the store of the size. -/
theorem processResult_loop {cmd : AdbCmd} (hb : cmd.biResult.room ≠ 0 → cmd.biResult.head = true)
    (fresh : Nat → BYTE) {s t : List BYTE} (hm : cmd.biOutput.mem.drop cmd.biOutput.data = s ++ 0 :: t) (h0 : 0 ∉ s) :
    ∃ b, ResultHdr b (sizeofRetGetApplist + (maxAppListNum - 1) * sizeofAppInfo) (.ofNat errorSuccess) ∧
      processResult access iconDir fresh cmd =
        (readApps access iconDir 0 (min (parseDWord s false).2.1.toNat maxAppListNum) 0 b
          (advance (s ++ 0 :: t) s (parseDWord s false).2.2)).map fun r =>
            ({ cmd with biResult := r.1.write 0 (dwordBytes (.ofNat r.1.dataSize)) }, r.2) := by
  obtain ⟨b₀, b₁, b, ha, hput, hb, hf⟩ := alloc_resultHdr hb
    (show sizeofEnumHdr ≤ sizeofRetGetApplist + (maxAppListNum - 1) * sizeofAppInfo by decide) fresh
    (.ofNat errorSuccess)
  refine ⟨b, hf, ?_⟩
  unfold processResult
  rw [ha]
  dsimp only
  rw [show sizeofAppListHdr = sizeofEnumHdr from rfl, hput]
  dsimp only
  rw [Nat.zero_add, Nat.zero_add, hb, hm, cString_append h0]
  dsimp only
  cases readApps access iconDir 0 (min (parseDWord s false).2.1.toNat maxAppListNum) 0 b
    (advance (s ++ 0 :: t) s (parseDWord s false).2.2) <;> rfl

/-- **A list of applications is read as it was written**: the count, each application at its place in order, and a
result of exactly their size. -/
theorem processResult_renderList {cmd : AdbCmd} (hb : cmd.biResult.room ≠ 0 → cmd.biResult.head = true)
    (fresh : Nat → BYTE) {apps : List AppRecord} (hle : apps.length ≤ maxAppListNum)
    (closed : Bool) (hs : cmd.szOutput = some (renderList apps closed)) :
    ∃ cmd' pulled, processResult access iconDir fresh cmd = .ok (cmd', pulled) ∧
      cmd'.dwResult = some (.ofNat errorSuccess) ∧ cmd'.dwCount = some (.ofNat apps.length) ∧
      cmd'.biResult.dataSize = sizeofAppListHdr + sizeofAppInfo * apps.length ∧
      cmd'.dwSize = some (.ofNat (sizeofAppListHdr + sizeofAppInfo * apps.length)) ∧
      ∀ i a, apps[i]? = some a → cmd'.appInfo i = some a.info := by
  obtain ⟨hz, t, hout⟩ := cString_eq_some.1 hs
  obtain ⟨b, hf, hproc⟩ := processResult_loop access iconDir hb fresh hout hz
  have hroom : sizeofAppListHdr + sizeofAppInfo * (0 + apps.length) ≤ b.room := by
    rw [Nat.zero_add]
    exact (Nat.add_le_add_left (Nat.mul_le_mul_left _ hle) _).trans hf.room
  obtain ⟨b', pulled, hloop, hl⟩ := readApps_render access iconDir closed t apps (i := 0) hf.head hf.tail hroom hf.count
  obtain ⟨rest, hrest⟩ : ∃ rest, (apps.flatMap AppRecord.render ++ if closed then [13, 13, 10] else []) = rest :=
    ⟨_, rfl⟩
  have hhead := closing_head closed apps
  have htext : renderList apps closed = decimal apps.length ++ rest := by
    rw [renderList, List.append_assoc, hrest]
  rw [hrest] at hloop hhead
  rw [htext] at hproc
  have hparse := parseDWord_decimal apps.length hhead
  have hlt : apps.length < 2 ^ 32 := Nat.lt_of_le_of_lt hle (by decide)
  have hcnt : min (UInt32.ofNat apps.length).toNat maxAppListNum = apps.length := by
    rw [UInt32.toNat_ofNat', Nat.mod_eq_of_lt hlt, Nat.min_eq_left hle]
  rw [hparse] at hproc
  dsimp only at hproc
  rw [hcnt, advance_append, hloop] at hproc
  have hd : b'.data = 0 := hl.data.trans hf.data
  have hsize : b'.dataSize = sizeofAppListHdr + sizeofAppInfo * apps.length := by
    rw [dataSize, hl.dataLen, hf.dataLen]
    rfl
  -- the store of `hdr.dwSize` leaves the rest
  have hkeep : ∀ {o : Nat} {bs : List BYTE}, 4 ≤ o → b'.Holds o bs →
      (b'.write 0 (dwordBytes (.ofNat b'.dataSize))).Holds o bs := fun ho h => h.write (Nat.zero_le _) (.inr ho)
  have hres := hl.keeps 4 (dwordBytes (.ofNat errorSuccess)) (.inl (Nat.le_refl 8)) hf.dwResult
  have hcount := hl.count
  rw [Nat.zero_add] at hcount
  refine ⟨_, pulled, hproc, ?_, ?_, hsize, ?_, fun k a hk => ?_⟩
  · show dwordField (List.drop b'.data _) 4 = _
    rw [hd, List.drop_zero, dwordField_of_holds (hkeep (Nat.le_refl 4) hres)]
  · show dwordField (List.drop b'.data _) 8 = _
    rw [hd, List.drop_zero, dwordField_of_holds (hkeep (by decide) hcount)]
  · show dwordField (List.drop b'.data _) 0 = _
    rw [hd, List.drop_zero, dwordField_write_self (Nat.zero_le _), hsize]
  · have happ := hl.app k a hk
    rw [Nat.zero_add] at happ
    have happ' : AppAt (b'.write 0 (dwordBytes (.ofNat b'.dataSize))) _ a := happ.keep fun o bs ho _ hb =>
      hkeep (Nat.le_trans (show 4 ≤ sizeofAppListHdr by decide) ((Nat.le_add_right _ _).trans ho)) hb
    show appInfoAt (List.drop b'.data _) _ = _
    rw [hd, List.drop_zero, happ'.read]

def twoApps : List AppRecord := [
  { szName := ascii "Clock", szLongName := ascii "com.android.deskclock", szVersion := ascii "2.0.3", dwVersion := 203,
    szName_ok := ⟨forall_of_all (by decide), by decide⟩, szLongName_ok := ⟨forall_of_all (by decide), by decide⟩,
    szVersion_ok := ⟨forall_of_all (by decide), by decide⟩ },
  { szName := [], szLongName := List.replicate 127 97, szVersion := [], dwVersion := 0,
    szName_ok := ⟨forall_of_all (by decide), by decide⟩, szVersion_ok := ⟨forall_of_all (by decide), by decide⟩,
    szLongName_ok := ⟨fun c hc => (by rw [List.eq_of_mem_replicate hc]; decide),
      (by rw [List.length_replicate]; decide)⟩ }]

/-- The icon of a package that fills its place loses its suffix. -/
theorem processResult_twoApps : ∃ cmd' pulled, processResult (fun _ => true) [] (fun _ => 0)
      (AdbCmd.ofOutput (renderList twoApps true)) = .ok (cmd', pulled) ∧ cmd'.dwCount = some 2 ∧
    cmd'.biResult.dataSize = 692 ∧
    (cmd'.appInfo 0).map AppInfo.szIconName = some (ascii "com.android.deskclock.png") ∧
    (cmd'.appInfo 1).map AppInfo.szIconName = some (List.replicate 127 97) := by
  have hb : (AdbCmd.ofOutput (renderList twoApps true)).biResult.room ≠ 0 →
      (AdbCmd.ofOutput (renderList twoApps true)).biResult.head = true := fun h => absurd rfl h
  have hs : (AdbCmd.ofOutput (renderList twoApps true)).szOutput = some (renderList twoApps true) := by decide +kernel
  obtain ⟨cmd', pulled, hp, -, hcount, hsize, -, happ⟩ := processResult_renderList (fun _ => true) [] hb (fun _ => 0)
    (show twoApps.length ≤ maxAppListNum by decide) true hs
  refine ⟨cmd', pulled, hp, hcount, hsize, ?_, ?_⟩
  · rw [happ 0 _ rfl]
    decide
  · rw [happ 1 _ rfl]
    decide

end AdbCmdGetApkList

end DevMgr
