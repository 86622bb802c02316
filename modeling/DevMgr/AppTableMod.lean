import DevMgr.CmdArgs
import DevMgr.QuotedText
import Mathlib.Data.Multiset.Filter
/-!
# AppTableMod — the applications of a device in the data base

`AppTableMod::OnExecuted` deletes the rows of the device and inserts one for each record of the list; it prints each
statement to a buffer of 500 bytes, with the strings between quotes as they are.  The data base is not in the source:
what it makes of the two kinds of statements, and which rows it takes for one, is a parameter (`SqlEngine`).
-/
namespace DevMgr

open MiscUtils BufferItem AdbCmdGetApkList QuotedText

/-- A row of `tablet_apps`. -/
structure AppRow where
  tabletSerial : List BYTE
  appName : List BYTE
  appApkName : List BYTE
  appVersion : List BYTE
  appVersionCode : DWORD
  appIcon : List BYTE
  deriving DecidableEq, Repr

namespace AppTableMod

/-- `sizeof(sql)`. -/
def cbSql : Nat := 500

/-- `_snprintf` to `sql`, as `ExecSql` finds it. -/
def printSql (text : List BYTE) : List BYTE := text.take (cbSql - 1)

def deleteText (szDevId : List BYTE) : List BYTE :=
  ascii "delete from tablet_apps where tablet_serial='" ++ szDevId ++ ascii "'"

/-- The format in front of the values. -/
def insertHead : List BYTE :=
  ascii "insert into tablet_apps (tablet_serial,app_name,app_apk_name,app_version,app_version_code,app_icon) values ("

def insertText (szDevId : List BYTE) (app : AppInfo) : List BYTE :=
  insertHead ++ ascii "'" ++ szDevId ++ ascii "','" ++ app.szName ++ ascii "','" ++ app.szLongName ++ ascii "','" ++
    app.szVersion ++ ascii "'," ++ decimal app.dwVersion.toNat ++ ascii ",'" ++ app.szIconName ++ ascii "')"

section
variable {Db : Type} (execSql : Db → List BYTE → Db) (szDevId : List BYTE)

/-- The loop, with `n` records to go. -/
def insertApps (mem : List BYTE) : Nat → Nat → Db → Except CmdFault Db
  | 0, _, db => .ok db
  | n + 1, pAppInfo, db => match appInfoAt mem pAppInfo with
    | none => .error .overread
    | some app => insertApps mem n (pAppInfo + sizeofAppInfo) (execSql db (printSql (insertText szDevId app)))

/-- The data base, and the device that observers are notified of. -/
def onExecuted (cmdCode : DevCmdCode) (pbiResult : BufferItem) (db : Db) : Except CmdFault (Db × Option (List BYTE)) :=
  if cmdCode = .getApplist then
    let db := execSql db (printSql (deleteText szDevId))
    match dwordField pbiResult.mem (pbiResult.data + 8) with
    | none => .error .overread
    | some dwCount =>
      match insertApps execSql szDevId pbiResult.mem dwCount.toNat (pbiResult.data + sizeofAppListHdr) db with
      | .error e => .error e
      | .ok db => .ok (db, some szDevId)
  else .ok (db, none)

end

/-! ## What the statements are to say -/

/-- The row of a record. -/
def appRow (szDevId : List BYTE) (app : AppInfo) : AppRow :=
  ⟨szDevId, app.szName, app.szLongName, app.szVersion, app.dwVersion, app.szIconName⟩

def deleteTokens (serial : List BYTE) : List (Token BYTE) :=
  (ascii "delete from tablet_apps where tablet_serial=").map .chr ++ [.lit serial]

def insertTokens (row : AppRow) : List (Token BYTE) :=
  insertHead.map .chr ++ ([.lit row.tabletSerial, .chr 44, .lit row.appName, .chr 44, .lit row.appApkName, .chr 44,
    .lit row.appVersion, .chr 44] ++ ((decimal row.appVersionCode.toNat).map .chr ++
      [.chr 44, .lit row.appIcon, .chr 41]))

/-- A data base with the table, as far as the two kinds of statements go; `same r r'` is whether it takes two rows for
one. -/
structure SqlEngine (Db : Type) where
  execSql : Db → List BYTE → Db
  tabletApps : Db → Multiset AppRow
  same : AppRow → AppRow → Bool

/-- A deletion takes out the rows of its serial.  An insertion adds its row, and fails where the row is there, as
`OnExecuted` says of it; rows of two devices or packages are never one. -/
structure SqlEngine.Lawful {Db : Type} (e : SqlEngine Db) : Prop where
  same_self : ∀ row, e.same row row = true
  same_package : ∀ r r', e.same r r' = true → r.tabletSerial = r'.tabletSerial ∧ r.appApkName = r'.appApkName
  delete : ∀ db sql serial, lex 39 sql = some (deleteTokens serial) →
    e.tabletApps (e.execSql db sql) = (e.tabletApps db).filter (·.tabletSerial ≠ serial)
  insert : ∀ db sql row, lex 39 sql = some (insertTokens row) → (∀ r ∈ e.tabletApps db, e.same r row = false) →
    e.tabletApps (e.execSql db sql) = row ::ₘ e.tabletApps db
  refuse : ∀ db sql row, lex 39 sql = some (insertTokens row) → (∃ r ∈ e.tabletApps db, e.same r row = true) →
    e.tabletApps (e.execSql db sql) = e.tabletApps db

/-- The statement for a record is not cut, is one statement, and its literals are read back. -/
structure Faithful (szDevId : List BYTE) (app : AppInfo) (sql : List BYTE) : Prop where
  complete : sql = insertText szDevId app
  single : ∃ ts ∈ lex 39 sql, 59 ∉ chars ts
  readBack : ∃ ts ∈ lex 39 sql,
    literals ts = [szDevId, app.szName, app.szLongName, app.szVersion, app.szIconName]

/-- The observer's result is a list of records. -/
structure IsAppList (pbiResult : BufferItem) (apps : List AppInfo) : Prop where
  dwCount : ∃ dwCount ∈ dwordField pbiResult.mem (pbiResult.data + 8), dwCount.toNat = apps.length
  appInfo : ∀ i, (hi : i < apps.length) →
    appInfoAt pbiResult.mem (pbiResult.data + sizeofAppListHdr + sizeofAppInfo * i) = some apps[i]

/-- Each insertion is faithful, and afterwards the rows of the device are those of the list. -/
structure Stored (szDevId : List BYTE) (pbiResult : BufferItem) (apps : List AppInfo) : Prop where
  statements : ∃ sqls, onExecuted (fun log sql => log ++ [sql]) szDevId .getApplist pbiResult [] =
      .ok (printSql (deleteText szDevId) :: sqls, some szDevId) ∧ List.Forall₂ (Faithful szDevId) apps sqls
  table : ∀ {Db : Type} (e : SqlEngine Db), e.Lawful → ∀ db, ∃ db',
    onExecuted e.execSql szDevId .getApplist pbiResult db = .ok (db', some szDevId) ∧
      (e.tabletApps db').filter (·.tabletSerial = szDevId) = ↑(apps.map (appRow szDevId))

/-- No string of the statement has a quote, and it is shorter than the buffer. -/
structure Quotable (szDevId : List BYTE) (app : AppInfo) : Prop where
  free : ∀ s ∈ [szDevId, app.szName, app.szLongName, app.szVersion, app.szIconName], (39 : BYTE) ∉ s
  room : (insertText szDevId app).length < cbSql

/-! ## The two statements as tokens -/

theorem not_mem_decimal {c : BYTE} (h : isDigit c = false) (n : Nat) : c ∉ decimal n := fun hc => by
  rw [isDigit_of_mem_decimal hc] at h
  cases h

theorem readable_deleteTokens (serial : List BYTE) : Readable 39 (deleteTokens serial) :=
  readable_map_chr (by decide) trivial

theorem readable_insertTokens (row : AppRow) : Readable 39 (insertTokens row) := by
  refine readable_map_chr (by decide) ?_
  have hend : Readable (39 : BYTE) [.chr 44, .lit row.appIcon, .chr 41] := ⟨by decide, by decide, trivial⟩
  have hnum := readable_map_chr (not_mem_decimal (c := 39) rfl row.appVersionCode.toNat) hend
  exact ⟨by decide, by decide, by decide, by decide, hnum⟩

@[simp] theorem literals_deleteTokens (serial : List BYTE) : literals (deleteTokens serial) = [serial] := by
  simp [deleteTokens]

@[simp] theorem literals_insertTokens (row : AppRow) : literals (insertTokens row) =
    [row.tabletSerial, row.appName, row.appApkName, row.appVersion, row.appIcon] := by
  simp [insertTokens]

theorem render_deleteTokens {szDevId : List BYTE} (h : 39 ∉ szDevId) :
    render 39 (deleteTokens szDevId) = deleteText szDevId := by
  have hhead : ascii "delete from tablet_apps where tablet_serial='" =
      ascii "delete from tablet_apps where tablet_serial=" ++ [39] := by decide +kernel
  rw [deleteTokens, deleteText, render_append, render_map_chr, render, render, escape_of_free h, hhead]
  simp [ascii]

theorem count_deleteText (szDevId : List BYTE) : (deleteText szDevId).count 39 = 2 + szDevId.count 39 := by
  have hhead : (ascii "delete from tablet_apps where tablet_serial='").count 39 = 1 := by decide +kernel
  have hend : (ascii "'").count 39 = 1 := by decide
  rw [deleteText, List.count_append, List.count_append, hhead, hend]
  omega

section
variable {szDevId : List BYTE} {app : AppInfo}

theorem count_insertText (szDevId : List BYTE) (app : AppInfo) : (insertText szDevId app).count 39 =
    10 + [szDevId, app.szName, app.szLongName, app.szVersion, app.szIconName].flatten.count 39 := by
  have hhead : insertHead.count 39 = 0 := by decide +kernel
  have hopen : (ascii "'").count 39 = 1 := by decide
  have hsep : (ascii "','").count 39 = 2 := by decide
  have hnum : (ascii "',").count 39 = 1 := by decide
  have hicon : (ascii ",'").count 39 = 1 := by decide
  have hend : (ascii "')").count 39 = 1 := by decide
  have hdec := List.count_eq_zero.2 (not_mem_decimal (c := 39) rfl app.dwVersion.toNat)
  simp only [insertText, List.count_append, List.flatten_cons, List.flatten_nil, List.count_nil, hhead, hopen, hsep,
    hnum, hicon, hend, hdec]
  omega

theorem render_insertTokens
    (h : ∀ s ∈ [szDevId, app.szName, app.szLongName, app.szVersion, app.szIconName], (39 : BYTE) ∉ s) :
    render 39 (insertTokens (appRow szDevId app)) = insertText szDevId app := by
  simp only [List.forall_mem_cons] at h
  obtain ⟨hid, hname, hlong, hversion, hicon, -⟩ := h
  simp only [insertTokens, insertText, appRow, render_append, render_map_chr, render, escape_of_free hid,
    escape_of_free hname, escape_of_free hlong, escape_of_free hversion, escape_of_free hicon]
  simp [ascii]

theorem lex_insertText (h : Quotable szDevId app) :
    lex 39 (printSql (insertText szDevId app)) = some (insertTokens (appRow szDevId app)) := by
  rw [printSql, List.take_of_length_le (Nat.le_sub_one_of_lt h.room), ← render_insertTokens h.free]
  exact lex_render (readable_insertTokens _)

/-- **A statement is faithful exactly when no string in it has a quote and it fits the buffer**: a quote that is read
back stands twice in the statement. -/
theorem faithful_iff : Faithful szDevId app (printSql (insertText szDevId app)) ↔ Quotable szDevId app := by
  constructor
  · rintro ⟨hcomplete, -, ts, hts, hlits⟩
    obtain ⟨hrender, hread⟩ := lex_eq_some.1 hts
    have hcount := count_insertText szDevId app
    rw [← hcomplete, hrender, count_render hread, hlits] at hcount
    have hfive : [szDevId, app.szName, app.szLongName, app.szVersion, app.szIconName].length = 5 := rfl
    rw [hfive] at hcount
    have hzero := List.count_eq_zero.1 (show [szDevId, app.szName, app.szLongName, app.szVersion,
      app.szIconName].flatten.count 39 = 0 by omega)
    refine ⟨fun s hs h39 => hzero (List.mem_flatten_of_mem hs h39), ?_⟩
    have hlen := congrArg List.length hcomplete
    rw [printSql, List.length_take] at hlen
    have hpos : 0 < cbSql := by decide
    omega
  · intro h
    have hlex := lex_insertText h
    refine ⟨?_, ⟨_, hlex, ?_⟩, _, hlex, literals_insertTokens _⟩
    · rw [printSql, List.take_of_length_le (Nat.le_sub_one_of_lt h.room)]
    · have hdec := not_mem_decimal (c := 59) rfl app.dwVersion.toNat
      simp only [insertTokens, appRow, chars_append, chars_map_chr, chars_chr, chars_lit, chars_nil, List.mem_append,
        List.mem_cons, List.not_mem_nil, hdec, not_or]
      decide

theorem room_deleteText (h : szDevId.length < maxDevIdLen) : (deleteText szDevId).length < cbSql := by
  have hmax : maxDevIdLen = 64 := rfl
  have hsql : cbSql = 500 := rfl
  have hhead : (ascii "delete from tablet_apps where tablet_serial='").length = 45 := by decide +kernel
  have hend : (ascii "'").length = 1 := by decide
  rw [deleteText, List.length_append, List.length_append, hhead, hend]
  omega

theorem lex_deleteText (hlen : szDevId.length < maxDevIdLen) :
    lex 39 (printSql (deleteText szDevId)) = some (deleteTokens szDevId) ↔ 39 ∉ szDevId := by
  rw [printSql, List.take_of_length_le (Nat.le_sub_one_of_lt (room_deleteText hlen))]
  constructor
  · intro h
    obtain ⟨hrender, hread⟩ := lex_eq_some.1 h
    have hcount := count_deleteText szDevId
    rw [hrender, count_render hread, literals_deleteTokens, List.flatten_singleton, List.length_singleton] at hcount
    exact List.count_eq_zero.1 (by omega)
  · intro h
    rw [← render_deleteTokens h]
    exact lex_render (readable_deleteTokens _)

/-! ## The run -/

variable {Db : Type} {execSql : Db → List BYTE → Db} {pbiResult : BufferItem} {apps : List AppInfo}

theorem insertApps_ok (mem : List BYTE) : ∀ (apps : List AppInfo) (pAppInfo : Nat) (db : Db),
    (∀ i, (hi : i < apps.length) → appInfoAt mem (pAppInfo + sizeofAppInfo * i) = some apps[i]) →
    insertApps execSql szDevId mem apps.length pAppInfo db =
      .ok ((apps.map fun app => printSql (insertText szDevId app)).foldl execSql db)
  | [], _, _, _ => rfl
  | app :: apps, pAppInfo, db, h => by
    have hfirst : appInfoAt mem pAppInfo = some app := h 0 (Nat.zero_lt_succ _)
    rw [List.length_cons, insertApps, hfirst]
    refine insertApps_ok mem apps _ _ fun i hi => ?_
    rw [Nat.add_assoc, Nat.add_comm sizeofAppInfo, ← Nat.mul_succ]
    exact h (i + 1) (Nat.succ_lt_succ hi)

/-- **What is executed**, over any data base. -/
theorem onExecuted_ok (h : IsAppList pbiResult apps) (db : Db) :
    onExecuted execSql szDevId .getApplist pbiResult db =
      .ok ((apps.map fun app => printSql (insertText szDevId app)).foldl execSql
        (execSql db (printSql (deleteText szDevId))), some szDevId) := by
  obtain ⟨dwCount, hcount, hlen⟩ := h.dwCount
  replace hcount : dwordField pbiResult.mem (pbiResult.data + 8) = some dwCount := hcount
  rw [onExecuted, if_pos rfl, hcount]
  dsimp only
  rw [hlen, insertApps_ok pbiResult.mem apps _ _ h.appInfo]

theorem foldl_log (sqls log : List (List BYTE)) : sqls.foldl (fun log sql => log ++ [sql]) log = log ++ sqls := by
  induction sqls generalizing log with
  | nil => rw [List.foldl_nil, List.append_nil]
  | cons sql sqls ih => rw [List.foldl_cons, ih, List.append_assoc, List.singleton_append]

/-- **A package that the device has no row for is inserted.** -/
theorem tabletApps_insert {e : SqlEngine Db} (he : e.Lawful) (h : Quotable szDevId app) {db : Db}
    (hnew : ∀ r ∈ e.tabletApps db, r.tabletSerial = szDevId → r.appApkName ≠ app.szLongName) :
    e.tabletApps (e.execSql db (printSql (insertText szDevId app))) = appRow szDevId app ::ₘ e.tabletApps db := by
  refine he.insert _ _ _ (lex_insertText h) fun r hr => ?_
  rw [← Bool.not_eq_true]
  intro hsame
  obtain ⟨hserial, hpackage⟩ := he.same_package _ _ hsame
  exact hnew r hr hserial hpackage

/-- The rows that the insertions add. -/
theorem tabletApps_foldl {e : SqlEngine Db} (he : e.Lawful) {apps : List AppInfo}
    (h : ∀ app ∈ apps, Quotable szDevId app) (hnodup : (apps.map AppInfo.szLongName).Nodup) (db : Db)
    (hnew : ∀ app ∈ apps, ∀ r ∈ e.tabletApps db, r.tabletSerial = szDevId → r.appApkName ≠ app.szLongName) :
    e.tabletApps ((apps.map fun app => printSql (insertText szDevId app)).foldl e.execSql db) =
      ↑(apps.map (appRow szDevId)) + e.tabletApps db := by
  induction apps generalizing db with
  | nil => rw [List.map_nil, List.foldl_nil, List.map_nil, Multiset.coe_nil, zero_add]
  | cons app apps ih =>
    have hins := tabletApps_insert he (h app List.mem_cons_self) (hnew app List.mem_cons_self)
    obtain ⟨hfirst, hrest⟩ := List.nodup_cons.1 hnodup
    rw [List.map_cons, List.foldl_cons, ih (fun x hx => h x (List.mem_cons_of_mem _ hx)) hrest, hins, List.map_cons,
      ← Multiset.cons_coe, Multiset.add_cons, Multiset.cons_add]
    intro x hx r hr hserial
    rw [hins] at hr
    rcases Multiset.mem_cons.1 hr with rfl | hr
    · intro hpackage
      exact hfirst ((show app.szLongName = x.szLongName from hpackage) ▸ List.mem_map_of_mem hx)
    · exact hnew x (List.mem_cons_of_mem _ hx) r hr hserial

end

/-! ## A data base that reads the statements back -/

inductive AppStmt where
  | delete (serial : List BYTE)
  | insert (row : AppRow)

/-- The statement that tokens are, if it is one of the two. -/
def parseStmt (ts : List (Token BYTE)) : Option AppStmt :=
  match literals ts with
  | [serial] => if ts = deleteTokens serial then some (.delete serial) else none
  | [serial, name, apkName, version, icon] =>
    let row := ⟨serial, name, apkName, version, (parseDWord ((chars ts).filter isDigit) false).2.1, icon⟩
    if ts = insertTokens row then some (.insert row) else none
  | _ => none

/-- The key of a row: its device and package. -/
def rowKey (row : AppRow) : List BYTE × List BYTE := (row.tabletSerial, row.appApkName)

/-- The table alone, which no other statement changes, with a row for each package of a device. -/
def tableEngine : SqlEngine (Multiset AppRow) where
  execSql rows sql := match (lex 39 sql).bind parseStmt with
    | some (.delete serial) => rows.filter (·.tabletSerial ≠ serial)
    | some (.insert row) => if rowKey row ∈ rows.map rowKey then rows else row ::ₘ rows
    | none => rows
  tabletApps := id
  same r r' := rowKey r = rowKey r'

theorem parseStmt_deleteTokens (serial : List BYTE) : parseStmt (deleteTokens serial) = some (.delete serial) := by
  rw [parseStmt, literals_deleteTokens]
  exact if_pos rfl

theorem parseStmt_insertTokens (row : AppRow) : parseStmt (insertTokens row) = some (.insert row) := by
  have hdigits : (chars (insertTokens row)).filter isDigit = decimal row.appVersionCode.toNat := by
    have hhead : insertHead.filter isDigit = [] := by decide +kernel
    have hnum : (decimal row.appVersionCode.toNat).filter isDigit = decimal row.appVersionCode.toNat :=
      List.filter_eq_self.2 fun c hc => isDigit_of_mem_decimal hc
    simp only [insertTokens, chars_append, chars_map_chr, chars_chr, chars_lit, chars_nil, List.filter_append, hhead,
      hnum]
    rw [show ([44, 44, 44, 44] : List BYTE).filter isDigit = [] by decide,
      show ([44, 41] : List BYTE).filter isDigit = [] by decide, List.nil_append, List.nil_append, List.append_nil]
  have hcode : (parseDWord ((chars (insertTokens row)).filter isDigit) false).2.1 = row.appVersionCode := by
    have hread := parseDWord_decimal row.appVersionCode.toNat (s := []) fun c hc => by cases hc
    rw [List.append_nil] at hread
    rw [hdigits, hread]
    exact UInt32.ofNat_toNat
  rw [parseStmt, literals_insertTokens]
  dsimp only
  rw [hcode]
  exact if_pos rfl

theorem parseStmt_delete {ts : List (Token BYTE)} {serial : List BYTE} (h : parseStmt ts = some (.delete serial)) :
    ts = deleteTokens serial := by
  unfold parseStmt at h
  split at h
  · split at h
    · cases h
      assumption
    · cases h
  · dsimp only at h
    split at h <;> cases h
  · cases h

theorem tableEngine_lawful : tableEngine.Lawful where
  same_self row := decide_eq_true rfl
  same_package r r' h := Prod.mk.inj (of_decide_eq_true h)
  delete db sql serial h := by
    unfold tableEngine
    dsimp only [id]
    rw [h, Option.bind_some, parseStmt_deleteTokens]
  insert db sql row h hnew := by
    unfold tableEngine at hnew ⊢
    dsimp only [id] at hnew ⊢
    rw [h, Option.bind_some, parseStmt_insertTokens]
    refine if_neg fun hm => ?_
    obtain ⟨r, hr, he⟩ := Multiset.mem_map.1 hm
    exact of_decide_eq_false (hnew r hr) he
  refuse db sql row h hrow := by
    unfold tableEngine at hrow ⊢
    dsimp only [id] at hrow ⊢
    rw [h, Option.bind_some, parseStmt_insertTokens]
    obtain ⟨r, hr, he⟩ := hrow
    exact if_pos (Multiset.mem_map.2 ⟨r, hr, of_decide_eq_true he⟩)

/-- **No statement gives a package of a device a second row.** -/
theorem tableEngine_keyed {rows : Multiset AppRow} (h : (rows.map rowKey).Nodup) (sqls : List (List BYTE)) :
    ((sqls.foldl tableEngine.execSql rows).map rowKey).Nodup := by
  induction sqls generalizing rows with
  | nil => exact h
  | cons sql sqls ih =>
    refine ih ?_
    unfold tableEngine
    dsimp only
    split
    · exact Multiset.nodup_of_le (Multiset.map_le_map (Multiset.filter_le _ _)) h
    · split
      · exact h
      · rename_i row _ hnew
        rw [Multiset.map_cons, Multiset.nodup_cons]
        exact ⟨hnew, h⟩
    · exact h

section
variable {szDevId : List BYTE} {pbiResult : BufferItem} {apps : List AppInfo}

/-- A deletion that takes out the device's rows is one that names the device. -/
theorem free_of_deleted (hlen : szDevId.length < maxDevIdLen)
    (h : (tableEngine.execSql {(⟨szDevId, [], [], [], 0, []⟩ : AppRow)} (printSql (deleteText szDevId))).filter
      (·.tabletSerial = szDevId) = 0) : 39 ∉ szDevId := by
  rw [← lex_deleteText hlen]
  unfold tableEngine at h
  dsimp only at h
  cases hstmt : (lex 39 (printSql (deleteText szDevId))).bind parseStmt with
  | none =>
    rw [hstmt] at h
    simp at h
  | some stmt =>
    obtain ⟨ts, hts, hparse⟩ := Option.bind_eq_some_iff.1 hstmt
    cases stmt with
    | insert row =>
      rw [hstmt, Multiset.filter_eq_nil] at h
      refine absurd rfl (h ⟨szDevId, [], [], [], 0, []⟩ ?_)
      dsimp only
      split
      · exact Multiset.mem_singleton_self _
      · exact Multiset.mem_cons_of_mem (Multiset.mem_singleton_self _)
    | delete serial =>
      rw [hstmt] at h
      have hserial : serial = szDevId := by
        by_contra hne
        have hkept : ({⟨szDevId, [], [], [], 0, []⟩} : Multiset AppRow).filter (·.tabletSerial ≠ serial) =
            {⟨szDevId, [], [], [], 0, []⟩} := Multiset.filter_eq_self.2 fun row hrow => by
          rw [Multiset.mem_singleton.1 hrow]
          exact Ne.symm hne
        dsimp only at h
        rw [hkept] at h
        simp at h
      rw [hts, parseStmt_delete hparse, hserial]

/-- **The list is stored exactly when** no string in a statement has a quote, every insertion fits the buffer and no
package is in it twice. -/
theorem onExecuted_stored_iff (hlen : szDevId.length < maxDevIdLen) (h : IsAppList pbiResult apps) :
    Stored szDevId pbiResult apps ↔
      39 ∉ szDevId ∧ (∀ app ∈ apps, Quotable szDevId app) ∧ (apps.map AppInfo.szLongName).Nodup := by
  have hlog := @onExecuted_ok szDevId _ (fun log sql => log ++ [sql]) _ _ h []
  rw [foldl_log, List.nil_append, List.singleton_append] at hlog
  constructor
  · rintro ⟨⟨sqls, hsqls, hall⟩, htable⟩
    rw [hlog] at hsqls
    cases hsqls
    have hquot : ∀ app ∈ apps, Quotable szDevId app := by
      intro app happ
      rw [List.forall₂_map_right_iff] at hall
      exact faithful_iff.1 (List.forall₂_same.1 hall app happ)
    refine ⟨?_, hquot, ?_⟩
    · cases apps with
      | cons app apps => exact (hquot app List.mem_cons_self).free szDevId List.mem_cons_self
      | nil =>
        obtain ⟨db', hrun, hrows⟩ := htable tableEngine tableEngine_lawful {⟨szDevId, [], [], [], 0, []⟩}
        rw [onExecuted_ok h] at hrun
        cases hrun
        exact free_of_deleted hlen hrows
    · obtain ⟨db', hrun, hrows⟩ := htable tableEngine tableEngine_lawful 0
      rw [onExecuted_ok h] at hrun
      obtain rfl := (Prod.mk.inj (Except.ok.inj hrun)).1
      have hkeyed := tableEngine_keyed (show ((0 : Multiset AppRow).map rowKey).Nodup from Multiset.nodup_zero)
        (printSql (deleteText szDevId) :: apps.map fun app => printSql (insertText szDevId app))
      have hkeys : (apps.map (rowKey ∘ appRow szDevId)).Nodup := by
        rw [← List.map_map, ← Multiset.coe_nodup, ← Multiset.map_coe, ← hrows]
        exact Multiset.nodup_of_le (Multiset.map_le_map (Multiset.filter_le _ _)) hkeyed
      refine List.Nodup.of_map (Prod.mk szDevId) ?_
      rw [List.map_map]
      exact hkeys
  · rintro ⟨hid, hquot, hnodup⟩
    refine ⟨⟨_, hlog, ?_⟩, fun e he db => ⟨_, onExecuted_ok h db, ?_⟩⟩
    · rw [List.forall₂_map_right_iff]
      exact List.forall₂_same.2 fun app happ => faithful_iff.2 (hquot app happ)
    · have hdel := he.delete db _ _ ((lex_deleteText hlen).2 hid)
      have hnew : (↑(apps.map (appRow szDevId)) : Multiset AppRow).filter (·.tabletSerial = szDevId) =
          ↑(apps.map (appRow szDevId)) := Multiset.filter_eq_self.2 fun row hrow => by
        obtain ⟨app, -, rfl⟩ := List.mem_map.1 (Multiset.mem_coe.1 hrow)
        rfl
      rw [tabletApps_foldl he hquot hnodup, hdel, Multiset.filter_add, hnew,
        Multiset.filter_eq_nil.2 fun row hrow => (Multiset.mem_filter.1 hrow).2, add_zero]
      intro app _ r hr hserial
      rw [hdel] at hr
      exact absurd hserial (Multiset.mem_filter.1 hr).2

end

/-- A record whose strings have zeros behind them. -/
def appBytes (app : AppInfo) : List BYTE :=
  strncpy app.szName maxAppNameLen ++ strncpy app.szLongName maxAppLongnameLen ++
    strncpy app.szIconName maxAppIconnameLen ++ strncpy app.szVersion maxAppVersionLen ++ dwordBytes app.dwVersion

/-- A list of such records. -/
def appList (apps : List AppInfo) : BufferItem where
  head := true
  mem := List.replicate 8 0 ++ dwordBytes (.ofNat apps.length) ++ apps.flatMap appBytes
  data := 0
  tail := sizeofAppListHdr + sizeofAppInfo * apps.length
  dataLen := sizeofAppListHdr + sizeofAppInfo * apps.length

def maps : AppInfo := ⟨ascii "Maps", ascii "org.maps", ascii "org.maps.png", ascii "1.2", 12⟩
def camera : AppInfo := ⟨ascii "Camera", ascii "org.camera", ascii "org.camera.png", ascii "4.4.2", 442⟩
def joesMaps : AppInfo := ⟨ascii "Joe's Maps", ascii "org.maps", ascii "org.maps.png", ascii "1.2", 12⟩

theorem isAppList_two : IsAppList (appList [maps, camera]) [maps, camera] where
  dwCount := ⟨2, by decide, rfl⟩
  appInfo i hi := by
    match i, hi with
    | 0, _ => exact (by decide +kernel : appInfoAt (appList [maps, camera]).mem 12 = some maps)
    | 1, _ => exact (by decide +kernel : appInfoAt (appList [maps, camera]).mem 352 = some camera)

theorem isAppList_joesMaps : IsAppList (appList [joesMaps]) [joesMaps] where
  dwCount := ⟨1, by decide, rfl⟩
  appInfo i hi := by
    obtain rfl := Nat.lt_one_iff.1 hi
    exact (by decide +kernel : appInfoAt (appList [joesMaps]).mem 12 = some joesMaps)

theorem quotable_two : ∀ app ∈ [maps, camera], Quotable (ascii "8A9B") app := by
  rw [List.forall_mem_cons, List.forall_mem_singleton]
  exact ⟨⟨by decide, by decide +kernel⟩, ⟨by decide, by decide +kernel⟩⟩

theorem onExecuted_stored_maps : Stored (ascii "8A9B") (appList [maps, camera]) [maps, camera] :=
  (onExecuted_stored_iff (by decide) isAppList_two).2 ⟨by decide, quotable_two, by decide⟩

/-- **A name with an apostrophe is not stored**: its literal ends there. -/
theorem apostrophe_not_stored : ¬ Stored (ascii "8A9B") (appList [joesMaps]) [joesMaps] := by
  rintro ⟨⟨sqls, hsqls, hall⟩, -⟩
  rw [onExecuted_ok isAppList_joesMaps] at hsqls
  cases hsqls
  have hquot := faithful_iff.1 (List.forall₂_cons.1 hall).1
  exact absurd (hquot.free (ascii "Joe's Maps") (by decide)) (by decide)

end AppTableMod

end DevMgr
