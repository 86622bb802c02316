import DevMgr.GlobalDef
import DevMgr.Machine
import DevMgr.MiscUtils
import Mathlib.Data.Multiset.Filter
/-!
# MtpSendFile — files that are pushed over MTP

`AdbCmdPushPullFile::MtpSendFile`, with `MtpCreateFolder` and `MtpDeleteFile`: it looks for a folder `CartInfo`,
whatever path it is given, and makes one if it finds none; it deletes the first file of its name there, and sends its
own.  The calls on one device follow one another.  LIBMTP is not in the source: what it does to a device is a parameter
(`Libmtp`), and each of its calls may fail.  A list that it cannot get is to the code one that is empty: then a second
`CartInfo` is made, or nothing is deleted.  `getMtpDevice` is what `GetMtpDevice` returns, and `stat` the host file, if
`stat` finds it.

`live` are the handle and the objects of LIBMTP that are to be given back, and `failed` whether one was that is not
among them.  Of each folder and name, `undeleted` counts the deletions that failed or had no list, `sent` is what was
sent last, and `asked` are those that something was sent under; `unlisted` counts the lists of folders that failed, and
`others` are the files that are in no `CartInfo`.
-/
namespace DevMgr

open Machines

structure MtpFolder where
  folderId : Nat
  name : List BYTE
  deriving DecidableEq, Repr

/-- A file of a device; the listing does not have its data. -/
structure MtpFile where
  itemId : Nat
  parentId : Nat
  filename : List BYTE
  data : List BYTE
  deriving DecidableEq, Repr

/-- A folder and the name of a file in it. -/
abbrev MtpPlace := Nat × List BYTE

/-- What a device has, its folders of the first level and its files; and `LIBMTP_Get_Folder_List`,
`LIBMTP_Create_Folder`, `LIBMTP_Get_Filelisting`, `LIBMTP_Delete_Object` and `LIBMTP_Send_File_From_File`. -/
structure Libmtp (Dev : Type) where
  folders : Dev → Multiset MtpFolder
  files : Dev → Multiset MtpFile
  getFolderList : Dev → Dev × Option (List MtpFolder)
  createFolder : Dev → List BYTE → Dev × Nat
  getFilelisting : Dev → Dev × Option (List MtpFile)
  deleteObject : Dev → Nat → Dev × Nat
  sendFileFromFile : Dev → List BYTE → Nat → List BYTE → Dev × Nat

inductive MtpObject where
  | handle
  | folderList
  | listed (i : Nat)
  | newFile
  deriving DecidableEq, Repr

structure MtpSender (Dev : Type) where
  dev : Dev
  live : List MtpObject
  failed : Bool
  unlisted : Nat
  undeleted : MtpPlace → Nat
  sent : MtpPlace → Option (List BYTE)
  asked : List MtpPlace
  others : Multiset MtpFile

inductive MtpSendStep (Dev : Type) where
  | mtpSendFile (getMtpDevice : Nat) (stat : Except Nat (List BYTE)) (szPathD szFileD : List BYTE)
  | other (dev : Dev)

def cartInfo : List BYTE := ascii "CartInfo"

namespace Libmtp

variable {Dev : Type} (lib : Libmtp Dev)

/-- What the device has stays. -/
structure Same (dev dev' : Dev) : Prop where
  folders : lib.folders dev' = lib.folders dev
  files : lib.files dev' = lib.files dev

/-- The calls that succeed, and those that fail, which leave the device as it was but for a part of the file that was
sent.  A new folder is empty, and has an id of its own. -/
structure Lawful : Prop where
  getFolderList : ∀ dev, lib.Same dev (lib.getFolderList dev).1 ∧
    ∀ l, (lib.getFolderList dev).2 = some l → ↑l = lib.folders dev
  createFolder : ∀ dev name, if (lib.createFolder dev name).2 = 0 then lib.Same dev (lib.createFolder dev name).1
    else lib.files (lib.createFolder dev name).1 = lib.files dev ∧
      lib.folders (lib.createFolder dev name).1 = ⟨(lib.createFolder dev name).2, name⟩ ::ₘ lib.folders dev ∧
      (∀ f ∈ lib.folders dev, f.folderId ≠ (lib.createFolder dev name).2) ∧
      ∀ f ∈ lib.files dev, f.parentId ≠ (lib.createFolder dev name).2
  getFilelisting : ∀ dev, lib.Same dev (lib.getFilelisting dev).1 ∧
    ∀ l, (lib.getFilelisting dev).2 = some l → ↑l = lib.files dev
  deleteObject : ∀ dev, ∀ f ∈ lib.files dev, lib.folders (lib.deleteObject dev f.itemId).1 = lib.folders dev ∧
    lib.files (lib.deleteObject dev f.itemId).1 =
      if (lib.deleteObject dev f.itemId).2 = 0 then (lib.files dev).erase f else lib.files dev
  sendFileFromFile : ∀ dev data parentId filename,
    lib.folders (lib.sendFileFromFile dev data parentId filename).1 = lib.folders dev ∧
    if (lib.sendFileFromFile dev data parentId filename).2 = 0 then
      ∃ itemId, lib.files (lib.sendFileFromFile dev data parentId filename).1 =
        ⟨itemId, parentId, filename, data⟩ ::ₘ lib.files dev
    else lib.files (lib.sendFileFromFile dev data parentId filename).1 = lib.files dev ∨
      ∃ itemId part, lib.files (lib.sendFileFromFile dev data parentId filename).1 =
        ⟨itemId, parentId, filename, part⟩ ::ₘ lib.files dev

def carts (dev : Dev) : Multiset MtpFolder := (lib.folders dev).filter (·.name = cartInfo)

/-- The id is that of a folder `CartInfo`. -/
def IsCart (dev : Dev) (folderId : Nat) : Prop := folderId ∈ (lib.carts dev).map MtpFolder.folderId

instance (dev : Dev) (folderId : Nat) : Decidable (lib.IsCart dev folderId) :=
  inferInstanceAs (Decidable (folderId ∈ (lib.carts dev).map MtpFolder.folderId))

/-- The files of a name in a folder. -/
def named (dev : Dev) (x : MtpPlace) : Multiset MtpFile :=
  (lib.files dev).filter fun f => (f.parentId, f.filename) = x

/-- Those that a `CartInfo` has had from the beginning. -/
def first (dev₀ : Dev) (x : MtpPlace) : Multiset MtpFile := if lib.IsCart dev₀ x.1 then lib.named dev₀ x else 0

/-- The files that are in no `CartInfo`. -/
def outside (dev : Dev) : Multiset MtpFile := (lib.files dev).filter fun f => ¬ lib.IsCart dev f.parentId

end Libmtp

namespace MtpSender

variable {Dev : Type} (lib : Libmtp Dev)

def take (s : MtpSender Dev) (os : List MtpObject) : MtpSender Dev := { s with live := os ++ s.live }

def giveBack (s : MtpSender Dev) (o : MtpObject) : MtpSender Dev :=
  if o ∈ s.live then { s with live := s.live.erase o } else { s with failed := true }

def destroy (s : MtpSender Dev) (os : List MtpObject) : MtpSender Dev := os.foldl giveBack s

/-- With the folder's id, 0 for a failure. -/
def mtpCreateFolder (s : MtpSender Dev) (_szFolder : List BYTE) : MtpSender Dev × Nat :=
  let szFolder := cartInfo
  let r := lib.getFolderList s.dev
  let pMtpFolder := r.2.getD []
  let os := if pMtpFolder = [] then [] else [.folderList]
  let s := { s with dev := r.1, unlisted := s.unlisted + if r.2.isNone then 1 else 0 }.take os
  match pMtpFolder.find? (·.name = szFolder) with
  | some pCurFolder => (s.destroy os, pCurFolder.folderId)
  | none =>
    let r := lib.createFolder s.dev szFolder
    ({ s with dev := r.1 }.destroy os, r.2)

def notDeleted (s : MtpSender Dev) (x : MtpPlace) (fails : Bool) : MtpSender Dev :=
  if fails then { s with undeleted := Function.update s.undeleted x (s.undeleted x + 1) } else s

def mtpDeleteFile (s : MtpSender Dev) (dwFolderId : Nat) (szFile : List BYTE) : MtpSender Dev :=
  let r := lib.getFilelisting s.dev
  let pMtpFile := r.2.getD []
  let os := (List.range pMtpFile.length).map .listed
  let s := { s with dev := r.1 }.take os
  match pMtpFile.find? fun f => dwFolderId = f.parentId ∧ szFile = f.filename with
  | some pCurFile =>
    let r := lib.deleteObject s.dev pCurFile.itemId
    ({ s with dev := r.1 }.notDeleted (dwFolderId, szFile) (r.2 ≠ 0)).destroy os
  | none => (s.notDeleted (dwFolderId, szFile) r.2.isNone).destroy os

/-- The part of `MtpSendFile` that has the host file and the folder. -/
def sendTo (s : MtpSender Dev) (dwFolderId : Nat) (data szFileD : List BYTE) : MtpSender Dev × Nat :=
  let s := (s.mtpDeleteFile lib dwFolderId szFileD).take [.newFile]
  let r := lib.sendFileFromFile s.dev data dwFolderId szFileD
  let s := { s with
    dev := r.1
    sent := Function.update s.sent (dwFolderId, szFileD) (if r.2 = 0 then some data else none)
    asked := (dwFolderId, szFileD) :: s.asked }
  ((s.giveBack .newFile).giveBack .handle, if r.2 = 0 then errorSuccess else r.2)

def mtpSendFile (s : MtpSender Dev) (getMtpDevice : Nat) (stat : Except Nat (List BYTE))
    (szPathD szFileD : List BYTE) : MtpSender Dev × Nat :=
  if getMtpDevice ≠ errorSuccess then (s, getMtpDevice) else
  let s := s.take [.handle]
  match stat with
  | .error dwRet => (s.giveBack .handle, dwRet)
  | .ok data =>
    let r := s.mtpCreateFolder lib szPathD
    if r.2 = 0 then (r.1.giveBack .handle, errorNotSupported) else r.1.sendTo lib r.2 data szFileD

/-- `other` is what else writes to the device. -/
def step (s : MtpSender Dev) : MtpSendStep Dev → Option (MtpSender Dev)
  | .mtpSendFile getMtpDevice stat szPathD szFileD => some (s.mtpSendFile lib getMtpDevice stat szPathD szFileD).1
  | .other dev => some { s with dev := dev, others := lib.outside dev }

def start (dev : Dev) : MtpSender Dev where
  dev := dev
  live := []
  failed := false
  unlisted := 0
  undeleted _ := 0
  sent _ := none
  asked := []
  others := lib.outside dev

def machine (dev : Dev) : Machine (MtpSender Dev) (MtpSendStep Dev) where
  init s := s = start lib dev
  step := step lib

/-- **What else writes to the device leaves the folders `CartInfo` alone.** -/
def Elsewhere (s : MtpSender Dev) : MtpSendStep Dev → Prop
  | .mtpSendFile _ _ _ _ => True
  | .other dev => lib.carts dev = lib.carts s.dev ∧ ∀ x, lib.IsCart s.dev x.1 → lib.named dev x = lib.named s.dev x

end MtpSender

/-! ## The folders and their files -/

namespace Libmtp

variable {Dev : Type} {lib : Libmtp Dev} {dev dev' : Dev} {x : MtpPlace} {f : MtpFile}

theorem carts_congr (h : lib.folders dev' = lib.folders dev) : lib.carts dev' = lib.carts dev := by
  unfold carts
  rw [h]

theorem isCart_congr (h : lib.carts dev' = lib.carts dev) (folderId : Nat) :
    lib.IsCart dev' folderId ↔ lib.IsCart dev folderId := by
  unfold IsCart
  rw [h]

theorem named_congr (h : lib.files dev' = lib.files dev) (x : MtpPlace) : lib.named dev' x = lib.named dev x := by
  unfold named
  rw [h]

/-- Of the files, and of where they are. -/
theorem outside_congr (h : lib.files dev' = lib.files dev)
    (hc : ∀ f ∈ lib.files dev, (lib.IsCart dev' f.parentId ↔ lib.IsCart dev f.parentId)) :
    lib.outside dev' = lib.outside dev := by
  unfold outside
  rw [h]
  exact Multiset.filter_congr fun f hf => not_congr (hc f hf)

/-- One file more. -/
theorem named_cons (hf : lib.files dev' = f ::ₘ lib.files dev) : lib.named dev' x =
    if (f.parentId, f.filename) = x then f ::ₘ lib.named dev x else lib.named dev x := by
  unfold named
  rw [hf]
  split
  · exact Multiset.filter_cons_of_pos _ ‹_›
  · exact Multiset.filter_cons_of_neg _ ‹_›

/-- What a change to the files of one name in a folder leaves. -/
structure Leaves (lib : Libmtp Dev) (x : MtpPlace) (dev dev' : Dev) : Prop where
  carts : lib.carts dev' = lib.carts dev
  outside : lib.outside dev' = lib.outside dev
  named : ∀ y, y ≠ x → lib.named dev' y = lib.named dev y

theorem Leaves.trans {dev'' : Dev} (h : lib.Leaves x dev dev') (h' : lib.Leaves x dev' dev'') :
    lib.Leaves x dev dev'' where
  carts := h'.carts.trans h.carts
  outside := h'.outside.trans h.outside
  named y hy := (h'.named y hy).trans (h.named y hy)

theorem Leaves.symm (h : lib.Leaves x dev dev') : lib.Leaves x dev' dev where
  carts := h.carts.symm
  outside := h.outside.symm
  named y hy := (h.named y hy).symm

theorem Leaves.of_folders (hd : lib.folders dev' = lib.folders dev) (hf : lib.files dev' = lib.files dev) :
    lib.Leaves x dev dev' where
  carts := carts_congr hd
  outside := outside_congr hf fun _ _ => isCart_congr (carts_congr hd) _
  named y _ := named_congr hf y

theorem Same.leaves (h : lib.Same dev dev') : lib.Leaves x dev dev' := .of_folders h.folders h.files

theorem Leaves.of_cons (hd : lib.folders dev' = lib.folders dev) (hf : lib.files dev' = f ::ₘ lib.files dev)
    (hp : lib.IsCart dev f.parentId) : lib.Leaves (f.parentId, f.filename) dev dev' where
  carts := carts_congr hd
  outside := by
    have hc := isCart_congr (carts_congr hd)
    unfold Libmtp.outside
    rw [hf, Multiset.filter_cons_of_neg _ fun h => h ((hc _).2 hp)]
    exact Multiset.filter_congr fun g _ => not_congr (hc _)
  named y hy := by
    rw [named_cons hf]
    exact if_neg fun h => hy h.symm

/-- **A new folder has no files**, and changes nothing else. -/
theorem createFolder_adds (hl : lib.Lawful) {folderId : Nat} (hr : lib.createFolder dev cartInfo = (dev', folderId))
    (hne : folderId ≠ 0) : lib.carts dev' = ⟨folderId, cartInfo⟩ ::ₘ lib.carts dev ∧ ¬ lib.IsCart dev folderId ∧
      lib.outside dev' = lib.outside dev ∧ (∀ x, lib.named dev' x = lib.named dev x) ∧
      ∀ filename, lib.named dev (folderId, filename) = 0 := by
  have h := hl.createFolder dev cartInfo
  rw [hr, if_neg hne] at h
  obtain ⟨hf, hd, hfolder, hfile⟩ := h
  have hcarts : lib.carts dev' = ⟨folderId, cartInfo⟩ ::ₘ lib.carts dev := by
    unfold carts
    rw [hd]
    exact Multiset.filter_cons_of_pos (p := fun f : MtpFolder => f.name = cartInfo) _ rfl
  refine ⟨hcarts, fun hc => ?_, outside_congr hf fun f hm => ?_, named_congr hf, fun filename => ?_⟩
  · obtain ⟨f, hm, hid⟩ := Multiset.mem_map.1 hc
    exact hfolder f (Multiset.mem_of_mem_filter hm) hid
  · unfold IsCart
    rw [hcarts, Multiset.map_cons, Multiset.mem_cons]
    exact or_iff_right (hfile f hm)
  · exact Multiset.filter_eq_nil.2 fun f hm hp => hfile f hm (congrArg Prod.fst hp)

end Libmtp

/-! ## The objects -/

namespace MtpSender

variable {Dev : Type} {lib : Libmtp Dev} {s s' : MtpSender Dev} {dev₀ : Dev} {os : List MtpObject}

/-- What was taken last is given back. -/
theorem giveBack_head {o : MtpObject} (h : s.live = o :: os) : s.giveBack o = { s with live := os } := by
  unfold giveBack
  rw [if_pos (by rw [h]; exact List.mem_cons_self), h, List.erase_cons_head]

theorem destroy_all {rest : List MtpObject} : ∀ {os : List MtpObject} {s : MtpSender Dev}, s.live = os ++ rest →
    s.destroy os = { s with live := rest }
  | [], s, h => by
    have hs : s.live = rest := h
    rw [← hs]
    rfl
  | o :: os, s, h => by
    have hdestroy : s.destroy (o :: os) = (s.giveBack o).destroy os := rfl
    rw [hdestroy, giveBack_head h]
    exact destroy_all rfl

/-- The device after the list of its folders was asked for, and whether that failed. -/
def folderListed (lib : Libmtp Dev) (s : MtpSender Dev) : MtpSender Dev :=
  { s with
    dev := (lib.getFolderList s.dev).1
    unlisted := s.unlisted + if (lib.getFolderList s.dev).2.isNone then 1 else 0 }

theorem mtpCreateFolder_eq (s : MtpSender Dev) (szFolder : List BYTE) : s.mtpCreateFolder lib szFolder =
    match ((lib.getFolderList s.dev).2.getD []).find? (·.name = cartInfo) with
    | some f => (folderListed lib s, f.folderId)
    | none => ({ folderListed lib s with dev := (lib.createFolder (folderListed lib s).dev cartInfo).1 },
        (lib.createFolder (folderListed lib s).dev cartInfo).2) := by
  unfold mtpCreateFolder
  dsimp only
  cases ((lib.getFolderList s.dev).2.getD []).find? (·.name = cartInfo) with
  | none =>
    dsimp only
    rw [destroy_all rfl]
    rfl
  | some f =>
    dsimp only
    rw [destroy_all rfl]
    rfl

theorem notDeleted_eq (s : MtpSender Dev) (x : MtpPlace) (fails : Bool) : s.notDeleted x fails =
    { s with undeleted := Function.update s.undeleted x (s.undeleted x + if fails then 1 else 0) } := by
  unfold notDeleted
  cases fails with
  | false => simp
  | true => rfl

/-- What `MtpDeleteFile` does besides taking and giving back the list. -/
theorem mtpDeleteFile_eq (s : MtpSender Dev) (dwFolderId : Nat) (szFile : List BYTE) :
    s.mtpDeleteFile lib dwFolderId szFile =
      match ((lib.getFilelisting s.dev).2.getD []).find? fun f => dwFolderId = f.parentId ∧ szFile = f.filename with
      | some f => { s with dev := (lib.deleteObject (lib.getFilelisting s.dev).1 f.itemId).1 }.notDeleted
          (dwFolderId, szFile) ((lib.deleteObject (lib.getFilelisting s.dev).1 f.itemId).2 ≠ 0)
      | none => { s with dev := (lib.getFilelisting s.dev).1 }.notDeleted (dwFolderId, szFile)
          (lib.getFilelisting s.dev).2.isNone := by
  unfold mtpDeleteFile
  dsimp only
  cases ((lib.getFilelisting s.dev).2.getD []).find? fun f => dwFolderId = f.parentId ∧ szFile = f.filename with
  | none =>
    dsimp only
    rw [notDeleted_eq, notDeleted_eq]
    exact destroy_all rfl
  | some f =>
    dsimp only
    rw [notDeleted_eq, notDeleted_eq]
    exact destroy_all rfl

/-! ## The deletion and the transfer -/

/-- **A deletion that fails is counted, and one that does not leaves room for the file that is sent.** -/
theorem mtpDeleteFile_leaves (hl : lib.Lawful) {dwFolderId : Nat} (hc : lib.IsCart s.dev dwFolderId)
    (szFile : List BYTE) : ∃ dev' n, s.mtpDeleteFile lib dwFolderId szFile = { s with
        dev := dev'
        undeleted := Function.update s.undeleted (dwFolderId, szFile) (s.undeleted (dwFolderId, szFile) + n) } ∧
      lib.Leaves (dwFolderId, szFile) s.dev dev' ∧
      (lib.named dev' (dwFolderId, szFile)).card ≤ (lib.named s.dev (dwFolderId, szFile)).card - 1 + n := by
  obtain ⟨hsame, hlist⟩ := hl.getFilelisting s.dev
  rw [mtpDeleteFile_eq]
  cases hget : (lib.getFilelisting s.dev).2 with
  | none =>
    refine ⟨_, 1, notDeleted_eq .., hsame.leaves, ?_⟩
    rw [Libmtp.named_congr hsame.files]
    omega
  | some l =>
    have hl' := hlist l hget
    dsimp only [Option.getD_some]
    cases hfind : l.find? fun f => dwFolderId = f.parentId ∧ szFile = f.filename with
    | none =>
      refine ⟨_, 0, notDeleted_eq .., hsame.leaves, ?_⟩
      have hnone : lib.named s.dev (dwFolderId, szFile) = 0 := Multiset.filter_eq_nil.2 fun f hf hp => by
        rw [← hl'] at hf
        have hne := List.find?_eq_none.1 hfind f hf
        simp only [decide_eq_true_eq] at hne
        exact hne ⟨(congrArg Prod.fst hp).symm, (congrArg Prod.snd hp).symm⟩
      rw [Libmtp.named_congr hsame.files, hnone, Multiset.card_zero]
    | some f =>
      have hp := List.find?_some hfind
      simp only [decide_eq_true_eq] at hp
      obtain ⟨rfl, rfl⟩ := hp
      obtain ⟨dev₁, hdev⟩ : ∃ dev₁, (lib.getFilelisting s.dev).1 = dev₁ := ⟨_, rfl⟩
      rw [hdev] at hsame ⊢
      have hm : f ∈ lib.files dev₁ := by
        rw [hsame.files, ← hl']
        exact List.mem_of_find?_eq_some hfind
      obtain ⟨hd, hf⟩ := hl.deleteObject dev₁ f hm
      rw [← Libmtp.named_congr hsame.files]
      refine ⟨_, _, notDeleted_eq .., ?_⟩
      by_cases hr : (lib.deleteObject dev₁ f.itemId).2 = 0
      · rw [if_pos hr] at hf
        have hcons : lib.files dev₁ = f ::ₘ lib.files (lib.deleteObject dev₁ f.itemId).1 := by
          rw [hf, Multiset.cons_erase hm]
        have hc' : lib.IsCart (lib.deleteObject dev₁ f.itemId).1 f.parentId :=
          (Libmtp.isCart_congr (Libmtp.carts_congr (hd.trans hsame.folders)) _).2 hc
        refine ⟨hsame.leaves.trans (Libmtp.Leaves.of_cons hd.symm hcons hc').symm, ?_⟩
        rw [Libmtp.named_cons hcons, if_pos rfl, Multiset.card_cons, Nat.add_sub_cancel]
        exact Nat.le_add_right _ _
      · rw [if_neg hr] at hf
        refine ⟨hsame.leaves.trans (.of_folders hd hf), ?_⟩
        rw [Libmtp.named_congr hf]
        simp only [hr, ne_eq, not_false_eq_true, decide_true, if_true]
        omega

/-- **A transfer adds a file**, or a part of it, or nothing. -/
theorem sendFileFromFile_leaves (hl : lib.Lawful) {dev : Dev} {dwFolderId : Nat} (hc : lib.IsCart dev dwFolderId)
    (data filename : List BYTE) {dev' : Dev} {ret : Nat}
    (hr : lib.sendFileFromFile dev data dwFolderId filename = (dev', ret)) :
    lib.Leaves (dwFolderId, filename) dev dev' ∧
      (lib.named dev' (dwFolderId, filename)).card ≤ 1 + (lib.named dev (dwFolderId, filename)).card ∧
      (ret = 0 → ∃ f ∈ lib.named dev' (dwFolderId, filename), f.data = data) := by
  obtain ⟨hd, hf⟩ := hl.sendFileFromFile dev data dwFolderId filename
  rw [hr] at hd hf
  dsimp only at hd hf
  have hcons : ∀ itemId part, lib.files dev' = ⟨itemId, dwFolderId, filename, part⟩ ::ₘ lib.files dev →
      lib.Leaves (dwFolderId, filename) dev dev' ∧ lib.named dev' (dwFolderId, filename) =
        ⟨itemId, dwFolderId, filename, part⟩ ::ₘ lib.named dev (dwFolderId, filename) := by
    intro itemId part hf
    refine ⟨.of_cons hd hf hc, ?_⟩
    rw [Libmtp.named_cons hf, if_pos rfl]
  by_cases hz : ret = 0
  · rw [if_pos hz] at hf
    obtain ⟨itemId, hf⟩ := hf
    obtain ⟨hleaves, hnamed⟩ := hcons itemId data hf
    refine ⟨hleaves, ?_, fun _ => ⟨_, by rw [hnamed]; exact Multiset.mem_cons_self _ _, rfl⟩⟩
    rw [hnamed, Multiset.card_cons]
    omega
  · rw [if_neg hz] at hf
    rcases hf with hf | ⟨itemId, part, hf⟩
    · refine ⟨.of_folders hd hf, ?_, fun h => absurd h hz⟩
      rw [Libmtp.named_congr hf]
      omega
    · obtain ⟨hleaves, hnamed⟩ := hcons itemId part hf
      refine ⟨hleaves, ?_, fun h => absurd h hz⟩
      rw [hnamed, Multiset.card_cons]
      omega

/-! ## The invariant -/

/-- With the objects that are yet to be given back. -/
structure Inv (lib : Libmtp Dev) (dev₀ : Dev) (os : List MtpObject) (s : MtpSender Dev) : Prop where
  live : s.live = os
  failed : s.failed = false
  carts : (lib.carts s.dev).card ≤ max 1 (lib.carts dev₀).card + s.unlisted
  kept : ∀ folderId, lib.IsCart dev₀ folderId → lib.IsCart s.dev folderId
  few : ∀ x, lib.IsCart s.dev x.1 → (lib.named s.dev x).card ≤ max 1 (lib.first dev₀ x).card + s.undeleted x
  sent : ∀ x data, s.sent x = some data → lib.IsCart s.dev x.1 ∧ ∃ f ∈ lib.named s.dev x, f.data = data
  unasked : ∀ x, lib.IsCart s.dev x.1 → x ∉ s.asked → lib.named s.dev x = lib.first dev₀ x
  others : lib.outside s.dev = s.others

/-- The device has the same folders `CartInfo` with the same files. -/
theorem Inv.congr (hi : Inv lib dev₀ os s) {dev' : Dev} (hc : lib.carts dev' = lib.carts s.dev)
    (hn : ∀ x, lib.IsCart s.dev x.1 → lib.named dev' x = lib.named s.dev x) {others' : Multiset MtpFile}
    (hout : lib.outside dev' = others') : Inv lib dev₀ os { s with dev := dev', others := others' } where
  live := hi.live
  failed := hi.failed
  carts := (congrArg Multiset.card hc).trans_le hi.carts
  kept k hk := (Libmtp.isCart_congr hc k).2 (hi.kept k hk)
  few x hx := by
    have hx' := (Libmtp.isCart_congr hc _).1 hx
    exact (congrArg Multiset.card (hn x hx')).trans_le (hi.few x hx')
  sent x data h := by
    obtain ⟨hx, f, hf, hdata⟩ := hi.sent x data h
    exact ⟨(Libmtp.isCart_congr hc _).2 hx, f, by rwa [hn x hx], hdata⟩
  unasked x hx h := by
    have hx' := (Libmtp.isCart_congr hc _).1 hx
    exact (hn x hx').trans (hi.unasked x hx' h)
  others := hout

theorem Inv.take (hi : Inv lib dev₀ os s) (o : MtpObject) : Inv lib dev₀ (o :: os) (s.take [o]) :=
  { hi with live := congrArg (o :: ·) hi.live }

theorem Inv.giveBack {o : MtpObject} (hi : Inv lib dev₀ (o :: os) s) : Inv lib dev₀ os (s.giveBack o) := by
  rw [giveBack_head hi.live]
  exact { hi with live := rfl }

theorem Inv.folderListed (hi : Inv lib dev₀ os s) (hl : lib.Lawful) : Inv lib dev₀ os (folderListed lib s) := by
  obtain ⟨hsame, -⟩ := hl.getFolderList s.dev
  have hleaves : lib.Leaves (0, []) s.dev (lib.getFolderList s.dev).1 := hsame.leaves
  have hi' := hi.congr hleaves.carts (fun x _ => Libmtp.named_congr hsame.files x) (hleaves.outside.trans hi.others)
  exact { hi' with carts := hi'.carts.trans (Nat.add_le_add_left (Nat.le_add_right _ _) _) }

/-- **A folder is made only when there is none, or when no list of the folders was got.** -/
theorem Inv.createFolder (hi : Inv lib dev₀ os s) (hl : lib.Lawful)
    (hroom : (lib.carts s.dev).card + 1 ≤ max 1 (lib.carts dev₀).card + s.unlisted) {dev' : Dev} {folderId : Nat}
    (hr : lib.createFolder s.dev cartInfo = (dev', folderId)) :
    Inv lib dev₀ os { s with dev := dev' } ∧ (folderId ≠ 0 → lib.IsCart dev' folderId) := by
  by_cases hz : folderId = 0
  · have hsame := hl.createFolder s.dev cartInfo
    rw [hr, if_pos hz] at hsame
    have hleaves : lib.Leaves (0, []) s.dev dev' := hsame.leaves
    exact ⟨hi.congr hleaves.carts (fun x _ => Libmtp.named_congr hsame.files x) (hleaves.outside.trans hi.others),
      fun hne => absurd hz hne⟩
  · obtain ⟨hcarts, hnew, hout, hnamed, hempty⟩ := Libmtp.createFolder_adds hl hr hz
    have hcart : ∀ k, lib.IsCart dev' k ↔ k = folderId ∨ lib.IsCart s.dev k := by
      intro k
      unfold Libmtp.IsCart
      rw [hcarts, Multiset.map_cons, Multiset.mem_cons]
    have hfirst : ∀ x : MtpPlace, x.1 = folderId → lib.named dev' x = 0 ∧ lib.first dev₀ x = 0 := by
      rintro ⟨k, filename⟩ rfl
      exact ⟨(hnamed _).trans (hempty filename), if_neg fun h => hnew (hi.kept _ h)⟩
    refine ⟨⟨hi.live, hi.failed, ?_, fun k hk => (hcart k).2 (.inr (hi.kept k hk)), fun x hx => ?_, fun x data h => ?_,
      fun x hx h => ?_, hout.trans hi.others⟩, fun _ => (hcart folderId).2 (.inl rfl)⟩
    · rw [hcarts, Multiset.card_cons]
      exact hroom
    · rcases (hcart x.1).1 hx with hk | hx
      · rw [(hfirst x hk).1, Multiset.card_zero]
        exact Nat.zero_le _
      · rw [hnamed x]
        exact hi.few x hx
    · obtain ⟨hx, hf⟩ := hi.sent x data h
      rw [hnamed x]
      exact ⟨(hcart x.1).2 (.inr hx), hf⟩
    · rcases (hcart x.1).1 hx with hk | hx
      · rw [(hfirst x hk).1, (hfirst x hk).2]
      · rw [hnamed x]
        exact hi.unasked x hx h

theorem Inv.mtpCreateFolder (hi : Inv lib dev₀ os s) (hl : lib.Lawful) (szFolder : List BYTE) :
    Inv lib dev₀ os (s.mtpCreateFolder lib szFolder).1 ∧ ((s.mtpCreateFolder lib szFolder).2 ≠ 0 →
      lib.IsCart (s.mtpCreateFolder lib szFolder).1.dev (s.mtpCreateFolder lib szFolder).2) := by
  obtain ⟨hsame, hlist⟩ := hl.getFolderList s.dev
  have hcarts : lib.carts (MtpSender.folderListed lib s).dev = lib.carts s.dev := Libmtp.carts_congr hsame.folders
  have hi' := hi.folderListed hl
  rw [mtpCreateFolder_eq]
  cases hfind : ((lib.getFolderList s.dev).2.getD []).find? (·.name = cartInfo) with
  | some f =>
    refine ⟨hi', fun _ => ?_⟩
    obtain ⟨l, hget, hfind⟩ : ∃ l, (lib.getFolderList s.dev).2 = some l ∧ l.find? (·.name = cartInfo) = some f := by
      cases hget : (lib.getFolderList s.dev).2 with
      | none =>
        rw [hget] at hfind
        cases hfind
      | some l => exact ⟨l, rfl, by rwa [hget] at hfind⟩
    have hm : f ∈ lib.folders s.dev := by
      rw [← hlist l hget]
      exact List.mem_of_find?_eq_some hfind
    have hn : f.name = cartInfo := by simpa using List.find?_some hfind
    exact (Libmtp.isCart_congr hcarts _).2 (Multiset.mem_map_of_mem _ (Multiset.mem_filter.2 ⟨hm, hn⟩))
  | none =>
    refine hi'.createFolder hl ?_ rfl
    rw [hcarts]
    cases hget : (lib.getFolderList s.dev).2 with
    | none =>
      have h := hi.carts
      simp only [MtpSender.folderListed, hget, Option.isNone_none, if_true]
      omega
    | some l =>
      have hnone : lib.carts s.dev = 0 := Multiset.filter_eq_nil.2 fun f hf hp => by
        rw [← hlist l hget] at hf
        rw [hget] at hfind
        exact absurd hp (by simpa using List.find?_eq_none.1 hfind f hf)
      rw [hnone, Multiset.card_zero]
      omega

theorem Inv.sendTo (hi : Inv lib dev₀ (.handle :: os) s) (hl : lib.Lawful) {dwFolderId : Nat}
    (hc : lib.IsCart s.dev dwFolderId) (data szFileD : List BYTE) :
    Inv lib dev₀ os (s.sendTo lib dwFolderId data szFileD).1 := by
  obtain ⟨dev₁, n, heq, hleaves, hfew⟩ := mtpDeleteFile_leaves hl hc szFileD
  have hc₁ := (Libmtp.isCart_congr hleaves.carts _).2 hc
  obtain ⟨dev₂, ret, hr⟩ : ∃ dev₂ ret, lib.sendFileFromFile dev₁ data dwFolderId szFileD = (dev₂, ret) := ⟨_, _, rfl⟩
  obtain ⟨hleaves', hcard, hdata⟩ := sendFileFromFile_leaves hl hc₁ data szFileD hr
  have hall := hleaves.trans hleaves'
  have hcart := Libmtp.isCart_congr hall.carts
  obtain ⟨place, hplace⟩ : ∃ place, (dwFolderId, szFileD) = place := ⟨_, rfl⟩
  have hfolder : lib.IsCart s.dev place.1 := hplace ▸ hc
  rw [hplace] at heq hfew hcard hdata hall
  have hfew' : ∀ x, lib.IsCart dev₂ x.1 → (lib.named dev₂ x).card ≤ max 1 (lib.first dev₀ x).card +
      Function.update s.undeleted place (s.undeleted place + n) x := by
    intro x hx
    by_cases hxp : x = place
    · rw [hxp, Function.update_self]
      have h := hi.few place hfolder
      omega
    · rw [hall.named x hxp, Function.update_of_ne hxp]
      exact hi.few x ((hcart _).1 hx)
  have hsent' : ∀ x d, Function.update s.sent place (if ret = 0 then some data else none) x = some d →
      lib.IsCart dev₂ x.1 ∧ ∃ f ∈ lib.named dev₂ x, f.data = d := by
    intro x d h
    by_cases hxp : x = place
    · rw [hxp, Function.update_self] at h
      rw [hxp]
      by_cases hz : ret = 0
      · rw [if_pos hz] at h
        rw [← Option.some.inj h]
        exact ⟨(hcart _).2 hfolder, hdata hz⟩
      · rw [if_neg hz] at h
        cases h
    · rw [hall.named x hxp, hcart]
      rw [Function.update_of_ne hxp] at h
      exact hi.sent x d h
  have hasked : ∀ x, lib.IsCart dev₂ x.1 → x ∉ place :: s.asked → lib.named dev₂ x = lib.first dev₀ x := by
    intro x hx h
    rw [hall.named x fun hxp => h (by rw [hxp]; exact List.mem_cons_self)]
    exact hi.unasked x ((hcart _).1 hx) fun hm => h (List.mem_cons_of_mem _ hm)
  simp only [MtpSender.sendTo, hplace, heq, MtpSender.take, hr]
  exact Inv.giveBack (Inv.giveBack ⟨congrArg (MtpObject.newFile :: ·) hi.live, hi.failed,
    (congrArg Multiset.card hall.carts).trans_le hi.carts, fun k hk => (hcart k).2 (hi.kept k hk),
    hfew', hsent', hasked, hall.outside.trans hi.others⟩)

theorem Inv.mtpSendFile (hi : Inv lib dev₀ os s) (hl : lib.Lawful) (getMtpDevice : Nat)
    (stat : Except Nat (List BYTE)) (szPathD szFileD : List BYTE) :
    Inv lib dev₀ os (s.mtpSendFile lib getMtpDevice stat szPathD szFileD).1 := by
  unfold MtpSender.mtpSendFile
  by_cases hg : getMtpDevice ≠ errorSuccess
  · rw [if_pos hg]
    exact hi
  · rw [if_neg hg]
    cases stat with
    | error dwRet => exact (hi.take .handle).giveBack
    | ok data =>
      obtain ⟨hi', hc⟩ := (hi.take .handle).mtpCreateFolder hl szPathD
      dsimp only
      split
      · exact hi'.giveBack
      · rename_i hne
        exact hi'.sendTo hl (hc hne) data szFileD

theorem Inv.start (lib : Libmtp Dev) (dev₀ : Dev) : Inv lib dev₀ [] (start lib dev₀) :=
  ⟨rfl, rfl, Nat.le_max_right .., fun _ hk => hk, fun x hx => by
    rw [show lib.first dev₀ x = lib.named dev₀ x from if_pos hx]
    exact Nat.le_max_right .., fun _ _ h => (by cases h), fun _ hx _ => (if_pos hx).symm, rfl⟩

theorem Inv.step (hi : Inv lib dev₀ [] s) (hl : lib.Lawful) {a : MtpSendStep Dev} (hok : Elsewhere lib s a)
    (h : MtpSender.step lib s a = some s') : Inv lib dev₀ [] s' := by
  cases a with
  | mtpSendFile getMtpDevice stat szPathD szFileD =>
    cases h
    exact hi.mtpSendFile hl getMtpDevice stat szPathD szFileD
  | other dev =>
    cases h
    exact hi.congr hok.1 hok.2 rfl

theorem inv_reach (hl : lib.Lawful) (h : (machine lib dev₀).ReachWhen (Elsewhere lib) s) : Inv lib dev₀ [] s := by
  refine Machine.ReachWhen.invariant ?_ (fun _ _ _ hi hok hs => hi.step hl hok hs) h
  intro s hs
  rw [show s = MtpSender.start lib dev₀ from hs]
  exact .start lib dev₀

/-- **Each folder `CartInfo` has under each name the data that was last sent there, and no more files than it had at
first**, or one, but for the deletions that failed; there are no more such folders than at first, or one, but for the
lists of folders that failed; what has other names and what is in no such folder stays; and all objects of LIBMTP are
given back, once. -/
theorem sent_files (hl : lib.Lawful) (h : (machine lib dev₀).ReachWhen (Elsewhere lib) s) :
    (lib.carts s.dev).card ≤ max 1 (lib.carts dev₀).card + s.unlisted ∧
    (∀ folderId, lib.IsCart dev₀ folderId → lib.IsCart s.dev folderId) ∧
    (∀ x, lib.IsCart s.dev x.1 → (lib.named s.dev x).card ≤ max 1 (lib.first dev₀ x).card + s.undeleted x) ∧
    (∀ x data, s.sent x = some data → lib.IsCart s.dev x.1 ∧ (∃ f ∈ lib.named s.dev x, f.data = data) ∧
      ((lib.first dev₀ x).card ≤ 1 → s.undeleted x = 0 → ∃ f, lib.named s.dev x = {f} ∧ f.data = data)) ∧
    (∀ x, lib.IsCart s.dev x.1 → x ∉ s.asked → lib.named s.dev x = lib.first dev₀ x) ∧
    lib.outside s.dev = s.others ∧ s.live = [] ∧ s.failed = false := by
  have hi := inv_reach hl h
  refine ⟨hi.carts, hi.kept, hi.few, fun x data hs => ?_, hi.unasked, hi.others, hi.live, hi.failed⟩
  obtain ⟨hx, f, hf, hdata⟩ := hi.sent x data hs
  refine ⟨hx, ⟨f, hf, hdata⟩, fun hone hz => ⟨f, ?_, hdata⟩⟩
  obtain ⟨rest, hrest⟩ := Multiset.exists_cons_of_mem hf
  have hcard := hi.few x hx
  rw [hrest, Multiset.card_cons, hz, max_eq_left hone] at hcard
  rw [hrest, Multiset.card_eq_zero.1 (by omega : rest.card = 0)]
  rfl

/-! ### A device -/

/-- Folders and files, with ids that count up, and which of the next calls fail. -/
structure Storage where
  folders : List MtpFolder
  files : List MtpFile
  next : Nat
  faults : List Bool
  pos : 0 < next
  folderBelow : ∀ f ∈ folders, f.folderId < next
  below : ∀ f ∈ files, f.itemId < next ∧ f.parentId < next
  unique : ∀ f ∈ files, ∀ g ∈ files, f.itemId = g.itemId → f = g

variable {folders : List MtpFolder} {files : List MtpFile} {n parentId : Nat} {filename data name : List BYTE}

theorem Storage.folderBelow_cons (h : ∀ f ∈ folders, f.folderId < n) :
    ∀ f ∈ (⟨n, name⟩ : MtpFolder) :: folders, f.folderId < n + 1 :=
  List.forall_mem_cons.2 ⟨Nat.lt_succ_self n, fun f hf => Nat.lt_succ_of_lt (h f hf)⟩

theorem Storage.folderBelow_succ (h : ∀ f ∈ folders, f.folderId < n) : ∀ f ∈ folders, f.folderId < n + 1 :=
  fun f hf => Nat.lt_succ_of_lt (h f hf)

theorem Storage.below_succ (h : ∀ f ∈ files, f.itemId < n ∧ f.parentId < n) :
    ∀ f ∈ files, f.itemId < n + 1 ∧ f.parentId < n + 1 :=
  fun f hf => ⟨Nat.lt_succ_of_lt (h f hf).1, Nat.lt_succ_of_lt (h f hf).2⟩

theorem Storage.below_erase (h : ∀ f ∈ files, f.itemId < n ∧ f.parentId < n) (g : MtpFile) :
    ∀ f ∈ files.erase g, f.itemId < n ∧ f.parentId < n :=
  fun f hf => h f (List.mem_of_mem_erase hf)

theorem Storage.unique_erase (h : ∀ f ∈ files, ∀ g ∈ files, f.itemId = g.itemId → f = g) (x : MtpFile) :
    ∀ f ∈ files.erase x, ∀ g ∈ files.erase x, f.itemId = g.itemId → f = g :=
  fun f hf g hg => h f (List.mem_of_mem_erase hf) g (List.mem_of_mem_erase hg)

theorem Storage.below_cons (h : ∀ f ∈ files, f.itemId < n ∧ f.parentId < n) (hp : parentId < n) :
    ∀ f ∈ (⟨n, parentId, filename, data⟩ : MtpFile) :: files, f.itemId < n + 1 ∧ f.parentId < n + 1 :=
  List.forall_mem_cons.2 ⟨⟨Nat.lt_succ_self n, Nat.lt_succ_of_lt hp⟩, below_succ h⟩

theorem Storage.unique_cons (h : ∀ f ∈ files, f.itemId < n ∧ f.parentId < n)
    (hu : ∀ f ∈ files, ∀ g ∈ files, f.itemId = g.itemId → f = g) :
    ∀ f ∈ (⟨n, parentId, filename, data⟩ : MtpFile) :: files, ∀ g ∈ (⟨n, parentId, filename, data⟩ : MtpFile) :: files,
      f.itemId = g.itemId → f = g := by
  intro f hf g hg hid
  rcases List.mem_cons.1 hf with rfl | hf <;> rcases List.mem_cons.1 hg with rfl | hg
  · rfl
  · exact absurd hid (h g hg).1.ne'
  · exact absurd hid (h f hf).1.ne
  · exact hu f hf g hg hid

namespace Storage

/-- Whether the call that is made fails, and the device after it. -/
def fails (t : Storage) : Bool := t.faults.headD false
def called (t : Storage) : Storage := { t with faults := t.faults.tail }

def create (t : Storage) (name : List BYTE) : Storage :=
  { t with
    folders := ⟨t.next, name⟩ :: t.folders
    next := t.next + 1
    pos := t.next.succ_pos
    folderBelow := folderBelow_cons t.folderBelow
    below := below_succ t.below }

def erase (t : Storage) (f : MtpFile) : Storage :=
  { t with
    files := t.files.erase f
    below := below_erase t.below f
    unique := unique_erase t.unique f }

def add (t : Storage) (data : List BYTE) (parentId : Nat) (filename : List BYTE) (hp : parentId < t.next) : Storage :=
  { t with
    files := ⟨t.next, parentId, filename, data⟩ :: t.files
    next := t.next + 1
    pos := t.next.succ_pos
    folderBelow := folderBelow_succ t.folderBelow
    below := below_cons t.below hp
    unique := unique_cons t.below t.unique }

def delete (t : Storage) (itemId : Nat) : Storage × Nat :=
  if t.fails then (t.called, 1) else match t.files.find? (·.itemId = itemId) with
    | some f => (t.called.erase f, 0)
    | none => (t.called, 1)

/-- `parentId` is the id of something; a transfer that fails leaves the first byte. -/
def send (t : Storage) (data : List BYTE) (parentId : Nat) (filename : List BYTE) : Storage × Nat :=
  if hp : parentId < t.next then
    if t.fails then (t.called.add (data.take 1) parentId filename hp, 1)
    else (t.called.add data parentId filename hp, 0)
  else (t.called, 1)

end Storage

def storage : Libmtp Storage where
  folders t := ↑t.folders
  files t := ↑t.files
  getFolderList t := (t.called, if t.fails then none else some t.folders)
  createFolder t name := if t.fails then (t.called, 0) else (t.called.create name, t.next)
  getFilelisting t := (t.called, if t.fails then none else some t.files)
  deleteObject := Storage.delete
  sendFileFromFile := Storage.send

theorem Storage.same_called (t : Storage) : storage.Same t t.called := ⟨rfl, rfl⟩

theorem storage_lawful : storage.Lawful where
  getFolderList t := by
    refine ⟨t.same_called, fun l hl => ?_⟩
    simp only [storage] at hl
    split at hl
    · cases hl
    · cases hl
      rfl
  createFolder t name := by
    simp only [storage]
    split
    · rw [if_pos rfl]
      exact t.same_called
    · rw [if_neg t.pos.ne']
      exact ⟨rfl, rfl, fun f hf => (t.folderBelow f hf).ne, fun f hf => (t.below f hf).2.ne⟩
  getFilelisting t := by
    refine ⟨t.same_called, fun l hl => ?_⟩
    simp only [storage] at hl
    split at hl
    · cases hl
    · cases hl
      rfl
  deleteObject t f hf := by
    have hmem : f ∈ t.files := hf
    have hfind : t.files.find? (·.itemId = f.itemId) = some f := by
      cases hfind : t.files.find? (·.itemId = f.itemId) with
      | none => exact absurd (decide_eq_true rfl) (List.find?_eq_none.1 hfind f hmem)
      | some g =>
        have hid : g.itemId = f.itemId := by simpa using List.find?_some hfind
        rw [t.unique g (List.mem_of_find?_eq_some hfind) f hmem hid]
    simp only [storage, Storage.delete, hfind]
    split
    · exact ⟨rfl, rfl⟩
    · exact ⟨rfl, rfl⟩
  sendFileFromFile t data parentId filename := by
    simp only [storage, Storage.send]
    split
    · rename_i hp
      split
      · exact ⟨rfl, .inr ⟨t.next, data.take 1, rfl⟩⟩
      · exact ⟨rfl, t.next, rfl⟩
    · exact ⟨rfl, .inl rfl⟩

/-- A file of the same name, in another folder. -/
def picture : MtpFile := ⟨2, 1, ascii "cart.json", [7]⟩

theorem Storage.folderBelow_camera : ∀ f ∈ [(⟨1, ascii "DCIM"⟩ : MtpFolder)], f.folderId < 3 := by decide

theorem Storage.below_picture : ∀ f ∈ [picture], f.itemId < 3 ∧ f.parentId < 3 := by decide

theorem Storage.unique_picture : ∀ f ∈ [picture], ∀ g ∈ [picture], f.itemId = g.itemId → f = g := by decide

/-- The deletion before the second transfer fails, and then a list of the folders. -/
def camera : Storage where
  folders := [⟨1, ascii "DCIM"⟩]
  files := [picture]
  next := 3
  faults := [false, false, false, false, false, false, true, false, true]
  pos := Nat.succ_pos 2
  folderBelow := Storage.folderBelow_camera
  below := Storage.below_picture
  unique := Storage.unique_picture

def sendThrice : List (MtpSendStep Storage) :=
  [[1], [2, 3], [4]].map fun data => .mtpSendFile errorSuccess (.ok data) (ascii "/sdcard") (ascii "cart.json")

/-- Two files of the name are left in the folder that was there, and one in a second. -/
theorem sent_files_failures : ∃ s, (machine storage camera).run (start storage camera) sendThrice = some s ∧
    (storage.carts s.dev).card ≤ 2 ∧ (storage.named s.dev (3, ascii "cart.json")).card ≤ 2 ∧
    (∃ f ∈ storage.named s.dev (3, ascii "cart.json"), f.data = [2, 3]) ∧
    (∃ f, storage.named s.dev (6, ascii "cart.json") = {f} ∧ f.data = [4]) ∧
    storage.outside s.dev = {picture} ∧ s.live = [] := by
  have hrun : ((machine storage camera).run (start storage camera) sendThrice).any (fun s =>
      s.unlisted == 1 && s.undeleted (3, ascii "cart.json") == 1 && s.undeleted (6, ascii "cart.json") == 0 &&
        s.sent (3, ascii "cart.json") == some [2, 3] && s.sent (6, ascii "cart.json") == some [4] &&
        decide (s.others = {picture})) = true := by
    decide +kernel
  obtain ⟨s, hs, hend⟩ := (Option.any_eq_true ..).1 hrun
  simp only [Bool.and_eq_true, decide_eq_true_eq, beq_iff_eq] at hend
  obtain ⟨⟨⟨⟨⟨hlist, hdel⟩, hdel'⟩, hsent⟩, hsent'⟩, hothers⟩ := hend
  have hok : ∀ a ∈ sendThrice, ∀ s, Elsewhere storage s a := by
    intro a ha s
    obtain ⟨data, -, rfl⟩ := List.mem_map.1 ha
    exact True.intro
  have hcarts : (storage.carts camera).card = 0 := by decide
  have hfirst : ∀ k, k ≠ 1 → storage.first camera (k, ascii "cart.json") = 0 := by
    intro k hk
    refine if_neg fun hc => ?_
    simp [Libmtp.IsCart, Multiset.card_eq_zero.1 hcarts] at hc
  obtain ⟨hcard, -, hfew, hdata, -, hout, hlive, -⟩ :=
    sent_files storage_lawful (Machine.ReachWhen.run (.init rfl) hok hs)
  rw [hcarts, hlist] at hcard
  obtain ⟨hcart, hf, -⟩ := hdata _ _ hsent
  obtain ⟨-, -, hf'⟩ := hdata _ _ hsent'
  have hfew' := hfew _ hcart
  rw [hfirst 3 (by decide), hdel] at hfew'
  rw [hfirst 6 (by decide)] at hf'
  exact ⟨s, hs, hcard, hfew', hf, hf' (Nat.zero_le _) hdel', hout.trans hothers, hlive⟩

end MtpSender
end DevMgr
