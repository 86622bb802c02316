import DevMgr.AppTableMod
import DevMgr.SmartDeviceAdb
/-!
# AppRows — the rows of `tablet_apps` over whole runs

`AppTableMod::OnExecuted`, one statement after the other, in the threads of `SmartDeviceAdb.cpp`: `onExecuted` is its
call with the deletion, `insert` one pass of its loop, `notify` its `Notify` and `returned` the end of `ExecuteOne`.  In
between the other threads go on, and the other tables' statements are executed (`otherSql`), which leave `tablet_apps`
alone.  A device is known to the data base by its id, which it may share with one that was there before it.

`reported` is the list that `OnExecuted` was last called with for an id, `reports` are the calls and `notified` those of
`Notify`.  `C_DEVCMD_GET_APPLIST` is for queue 1, which one thread serves.
-/
namespace DevMgr

open Machines AdbCmdGetApkList

/-- Where a call of `OnExecuted` with a list is: in its loop with `n` records to go, or behind its `Notify`. -/
inductive ReportPc where
  | out
  | inserting (szDevId mem : List BYTE) (n pAppInfo : Nat)
  | notified
  deriving DecidableEq

structure AppRows (Dev Db : Type) where
  adb : AdbState Dev
  pc : Thread → ReportPc
  db : Db
  overread : Bool
  reported : List BYTE → Option (List AppInfo)
  reports : List (List BYTE)
  notified : List (List BYTE)

inductive AppRowsStep (Dev : Type) where
  | adb (a : AdbStep Dev)
  | otherSql (sql : List BYTE)
  | onExecuted (w : Thread) (pbiResult : BufferItem) (apps : List AppInfo)
  | insert (w : Thread)
  | notify (w : Thread)
  | returned (w : Thread)

/-- A record whose `OnExecuted` writes the table. -/
def CmdRec.isReport (r : CmdRec) : Bool := r.cmdCode == .getApplist && r.pObserver == .appTableMod

/-- The record that a thread has in `ExecuteOne`. -/
def WorkPc.pRec {Dev : Type} : WorkPc Dev → Option CmdRec
  | .executeOne _ r | .executing _ r => some r
  | _ => none

namespace AppRows

open AppTableMod

variable {Dev Db : Type} [DecidableEq Dev] (publicFlush : Bool) (e : SqlEngine Db) (szId : Dev → List BYTE)

def setPc (s : AppRows Dev Db) (w : Thread) (pc : ReportPc) : AppRows Dev Db :=
  { s with pc := Function.update s.pc w pc }

/-- The rows of a device. -/
def rows (s : AppRows Dev Db) (szDevId : List BYTE) : Multiset AppRow :=
  (e.tabletApps s.db).filter (·.tabletSerial = szDevId)

/-- A thread that is in `OnExecuted` does not leave `ExecuteOne`, nor does one that has it to call. -/
def allowed (s : AppRows Dev Db) : AdbStep Dev → Bool
  | .finish w dwRet => s.pc w == .out && !(dwRet == errorSuccess && (s.adb.worker w).pRec.any CmdRec.isReport)
  | _ => true

def step (s : AppRows Dev Db) : AppRowsStep Dev → Option (AppRows Dev Db)
  | .adb a => if s.allowed a then (s.adb.step publicFlush a).map fun adb => { s with adb := adb } else none
  | .otherSql sql => if e.tabletApps (e.execSql s.db sql) = e.tabletApps s.db then
      some { s with db := e.execSql s.db sql } else none
  | .onExecuted w pbiResult apps => match s.adb.worker w with
    | .executing d r => if s.pc w = .out ∧ r.isReport then
        let s := { s with
          db := e.execSql s.db (printSql (deleteText (szId d)))
          reported := Function.update s.reported (szId d) (some apps), reports := s.reports ++ [szId d] }
        match dwordField pbiResult.mem (pbiResult.data + 8) with
        | none => some { s with overread := true }
        | some dwCount =>
          some (s.setPc w (.inserting (szId d) pbiResult.mem dwCount.toNat (pbiResult.data + sizeofAppListHdr)))
      else none
    | _ => none
  | .insert w => match s.pc w with
    | .inserting szDevId mem (n + 1) pAppInfo => match appInfoAt mem pAppInfo with
      | none => some { s with overread := true }
      | some app => some { s.setPc w (.inserting szDevId mem n (pAppInfo + sizeofAppInfo)) with
          db := e.execSql s.db (printSql (insertText szDevId app)) }
    | _ => none
  | .notify w => match s.pc w with
    | .inserting szDevId _ 0 _ => some { s.setPc w .notified with notified := s.notified ++ [szDevId] }
    | _ => none
  | .returned w => if s.pc w = .notified then
      (s.adb.step publicFlush (.finish w errorSuccess)).map fun adb => { s.setPc w .out with adb := adb } else none

/-- After `Load`. -/
def start (db : Db) : AppRows Dev Db where
  adb := .start
  pc _ := .out
  db := db
  overread := false
  reported _ := none
  reports := []
  notified := []

def machine (db : Db) : Machine (AppRows Dev Db) (AppRowsStep Dev) where
  init s := s = start db
  step := step publicFlush e szId

/-- **A call of `OnExecuted` with a list of records** of different packages, whose statements are read back as they are
meant. -/
def Sound (s : AppRows Dev Db) : AppRowsStep Dev → Prop
  | .onExecuted w pbiResult apps => ∀ d r, s.adb.worker w = .executing d r →
    (szId d).length < maxDevIdLen ∧ 39 ∉ szId d ∧ IsAppList pbiResult apps ∧
      (∀ app ∈ apps, Quotable (szId d) app) ∧ (apps.map AppInfo.szLongName).Nodup
  | _ => True

end AppRows

/-! ## The thread of the lists -/

namespace AdbState

variable {Dev : Type} [DecidableEq Dev] {publicFlush : Bool} {s s' : AdbState Dev} {a : AdbStep Dev} {w : Thread}

/-- The records of a queue are for commands of that queue. -/
structure Routed (s : AdbState Dev) : Prop where
  listed : ∀ d q, ∀ r ∈ s.cmdList d q, adbCmdQueueMap r.cmdCode = q
  taken : ∀ w r, (s.worker w).pRec = some r → adbCmdQueueMap r.cmdCode = threadQueue w

omit [DecidableEq Dev] in
theorem Routed.congr (h : Routed s) (h1 : s'.cmdList = s.cmdList)
    (h2 : ∀ w, (s'.worker w).pRec = (s.worker w).pRec ∨ (s'.worker w).pRec = none) : Routed s' where
  listed := by
    rw [h1]
    exact h.listed
  taken w r hr := by
    rcases h2 w with he | he
    · exact h.taken w r (he ▸ hr)
    · rw [he] at hr
      cases hr

omit [DecidableEq Dev] in
theorem pRec_setWorker {pc : WorkPc Dev} (hpc : pc.pRec = (s.worker w).pRec ∨ pc.pRec = none) (w' : Thread) :
    ((s.setWorker w pc).worker w').pRec = (s.worker w').pRec ∨ ((s.setWorker w pc).worker w').pRec = none := by
  by_cases hw : w' = w
  · subst hw
    rw [setWorker_self]
    exact hpc
  · rw [setWorker_of_ne s pc hw]
    exact .inl rfl

theorem Routed.takeCmd (h : Routed s) {d : Dev} : Routed (s.takeCmd w d (threadQueue w)) := by
  unfold AdbState.takeCmd
  split
  · exact h.congr rfl (pRec_setWorker (.inr rfl))
  · rename_i r rs hm
    constructor
    · intro d' q r' hr'
      refine h.listed d' q r' ?_
      by_cases hq : d' = d ∧ q = threadQueue w
      · obtain ⟨rfl, rfl⟩ := hq
        rw [hm]
        exact List.mem_cons_of_mem r (by simpa using hr')
      · simpa only [upd₂_of_ne _ _ _ _ hq] using hr'
    · intro w' r' hr'
      by_cases hw : w' = w
      · subst hw
        simp only [setWorker_self, WorkPc.pRec, Option.some.injEq] at hr'
        subst hr'
        exact h.listed d _ r (by rw [hm]; exact List.mem_cons_self)
      · simp only [setWorker_of_ne s _ hw] at hr'
        exact h.taken w' r' hr'

theorem Routed.step (h : Routed s) (hs : step publicFlush s a = some s') : Routed s' := by
  cases act_some hs with
  | quit | quitPost | newDevice | addRef | release | updateState | post => exact h.congr rfl fun _ => .inl rfl
  | @queueCmd d dwCmdIdx cmdCode pObserver _ _ =>
    refine ⟨fun d' q r hr => ?_, h.taken⟩
    by_cases hq : d' = d ∧ q = adbCmdQueueMap cmdCode
    · obtain ⟨rfl, rfl⟩ := hq
      simp only [AdbState.queueCmd, upd₂_self, List.mem_append, List.mem_singleton] at hr
      rcases hr with hr | rfl
      · exact h.listed _ _ r hr
      · rfl
    · simp only [AdbState.queueCmd, upd₂_of_ne _ _ _ _ hq] at hr
      exact h.listed d' q r hr
  | request =>
    unfold AdbState.request
    split <;> exact h.congr rfl fun _ => .inl rfl
  | @flush d q r rs _ _ hm =>
    refine ⟨fun d' q' r' hr' => h.listed d' q' r' ?_, h.taken⟩
    by_cases hq : d' = d ∧ q' = q
    · obtain ⟨rfl, rfl⟩ := hq
      rw [hm]
      exact List.mem_cons_of_mem r (by simpa using hr')
    · simpa only [upd₂_of_ne _ _ _ _ hq] using hr'
  | loopTest => exact h.congr rfl (pRec_setWorker (.inr (by split <;> rfl)))
  | wait | testEmpty | testPop | releaseDev => exact h.congr rfl (pRec_setWorker (.inr rfl))
  | cancel | finish => exact h.congr rfl (pRec_setWorker (.inr rfl))
  | execute hw _ => exact h.congr rfl (pRec_setWorker (.inl (by rw [event, hw]; rfl)))
  | @begin w d _ _ =>
    have hrun : Routed (s.setRunning d (threadQueue w)) := h.congr rfl fun _ => .inl rfl
    exact hrun.takeCmd
  | next => exact h.takeCmd

/-- A thread in `ExecuteOne` stays there until it finishes. -/
theorem executing_step {d : Dev} {r : CmdRec} (hw : s.worker w = .executing d r)
    (hs : step publicFlush s a = some s') (ha : ∀ dwRet, a ≠ .finish w dwRet) : s'.worker w = .executing d r := by
  have hset : ∀ (t : AdbState Dev) (w' : Thread) (pc : WorkPc Dev), w ≠ w' → t.worker = s.worker →
      (t.setWorker w' pc).worker w = .executing d r := fun t w' pc hne ht => by
    rw [setWorker_of_ne t pc hne, ht]
    exact hw
  have hother : ∀ {w' : Thread} {pc : WorkPc Dev}, s.worker w' = pc → pc ≠ .executing d r → w ≠ w' := by
    rintro w' pc h1 hpc rfl
    exact hpc (h1.symm.trans hw)
  cases act_some hs with
  | quit | quitPost | newDevice | addRef | release | updateState | queueCmd | post | flush => exact hw
  | request =>
    unfold AdbState.request
    split <;> exact hw
  | loopTest h1 | wait h1 _ | testEmpty h1 _ | testPop h1 _ | releaseDev h1 | cancel h1 _ | execute h1 _ =>
    exact hset _ _ _ (hother h1 (by simp)) rfl
  | finish h1 =>
    refine hset _ _ _ ?_ rfl
    rintro rfl
    exact ha _ rfl
  | begin h1 _ | next h1 _ =>
    unfold AdbState.takeCmd
    split <;> exact hset _ _ _ (hother h1 (by simp)) rfl

omit [DecidableEq Dev] in
theorem routed_start : Routed (start : AdbState Dev) where
  listed _ _ _ hr := by cases hr
  taken _ _ hr := by cases hr

omit [DecidableEq Dev] in
/-- **One thread has the lists.** -/
theorem Routed.report (h : Routed s) {d : Dev} {r : CmdRec} (hw : s.worker w = .executing d r)
    (hr : r.isReport = true) : w = 1 := by
  have hcode : r.cmdCode = .getApplist := by
    simp only [CmdRec.isReport, Bool.and_eq_true, beq_iff_eq] at hr
    exact hr.1
  have hone : ∀ w : Thread, adbCmdQueueMap .getApplist = threadQueue w → w = 1 := by decide
  have hq := h.taken w r (by rw [hw]; rfl)
  exact hone w (hcode ▸ hq)

end AdbState

namespace AppRows

open AppTableMod

variable {Dev Db : Type} [DecidableEq Dev] {publicFlush : Bool} {e : SqlEngine Db} {szId : Dev → List BYTE}
  {s s' : AppRows Dev Db} {a : AppRowsStep Dev} {db₀ : Db} {w : Thread}

/-- What the rows of an id are when no `OnExecuted` is at them. -/
def kept (e : SqlEngine Db) (db₀ : Db) (szDevId : List BYTE) : Option (List AppInfo) → Multiset AppRow
  | none => (e.tabletApps db₀).filter (·.tabletSerial = szDevId)
  | some apps => ↑(apps.map (appRow szDevId))

/-- **In the loop**: of the list the first are in the table, and the others are where the loop reads on. -/
structure Loop (e : SqlEngine Db) (s : AppRows Dev Db) (szDevId mem : List BYTE) (n pAppInfo : Nat)
    (done todo : List AppInfo) : Prop where
  reported : s.reported szDevId = some (done ++ todo)
  left : todo.length = n
  appInfo : ∀ i, (hi : i < todo.length) → appInfoAt mem (pAppInfo + sizeofAppInfo * i) = some todo[i]
  quotable : ∀ app ∈ todo, Quotable szDevId app
  nodup : ((done ++ todo).map AppInfo.szLongName).Nodup
  rows : s.rows e szDevId = ↑(done.map (appRow szDevId))

/-- What the thread of the lists is at. -/
def At (e : SqlEngine Db) (db₀ : Db) (s : AppRows Dev Db) : ReportPc → Prop
  | .out | .notified => s.reports = s.notified ∧ ∀ szDevId, s.rows e szDevId = kept e db₀ szDevId (s.reported szDevId)
  | .inserting szDevId mem n pAppInfo => s.reports = s.notified ++ [szDevId] ∧
      (∃ done todo, Loop e s szDevId mem n pAppInfo done todo) ∧
      ∀ x, x ≠ szDevId → s.rows e x = kept e db₀ x (s.reported x)

structure Inv (e : SqlEngine Db) (db₀ : Db) (s : AppRows Dev Db) : Prop where
  routed : s.adb.Routed
  busy : ∀ w, s.pc w ≠ .out → ∃ d r, s.adb.worker w = .executing d r ∧ r.isReport = true
  fine : s.overread = false
  rows : At e db₀ s (s.pc 1)

omit [DecidableEq Dev] in
/-- Only the thread of the lists is in `OnExecuted`. -/
theorem Inv.alone (h : Inv e db₀ s) (hw : s.pc w ≠ .out) : w = 1 := by
  obtain ⟨d, r, hd, hr⟩ := h.busy w hw
  exact h.routed.report hd hr

omit [DecidableEq Dev] in
/-- A step that leaves the table. -/
theorem At.congr {pc : ReportPc} (h : At e db₀ s pc) (h1 : ∀ x, s'.rows e x = s.rows e x)
    (h2 : s'.reported = s.reported) (h3 : s'.reports = s.reports) (h4 : s'.notified = s.notified) : At e db₀ s' pc := by
  cases pc with
  | out | notified =>
    refine ⟨by rw [h3, h4]; exact h.1, fun x => ?_⟩
    rw [h1, h2]
    exact h.2 x
  | inserting szDevId mem n pAppInfo =>
    obtain ⟨hr, ⟨done, todo, hl⟩, hx⟩ := h
    refine ⟨by rw [h3, h4]; exact hr, ⟨done, todo, ?_⟩, fun x hne => ?_⟩
    · exact ⟨by rw [h2]; exact hl.reported, hl.left, hl.appInfo, hl.quotable, hl.nodup, by rw [h1]; exact hl.rows⟩
    · rw [h1, h2]
      exact hx x hne

/-! ### A call that is not disturbed -/

variable (publicFlush szId db₀) in
/-- The loop, by itself, makes of the table what `insertApps` makes of it. -/
theorem insertApps_run {szDevId mem : List BYTE} {db : Db} : ∀ {n pAppInfo : Nat} {s : AppRows Dev Db},
    s.pc w = .inserting szDevId mem n pAppInfo → insertApps e.execSql szDevId mem n pAppInfo s.db = .ok db →
    ∃ s', (machine publicFlush e szId db₀).run s (List.replicate n (.insert w)) = some s' ∧ s'.db = db ∧
      (∃ p, s'.pc w = .inserting szDevId mem 0 p) ∧ s'.notified = s.notified
  | 0, pAppInfo, s, hpc, h => ⟨s, rfl, Except.ok.inj h, ⟨pAppInfo, hpc⟩, rfl⟩
  | n + 1, pAppInfo, s, hpc, h => by
    rw [insertApps] at h
    split at h
    · cases h
    · rename_i app happ
      have hs : step publicFlush e szId s (.insert w) = some
          { s.setPc w (.inserting szDevId mem n (pAppInfo + sizeofAppInfo)) with
            db := e.execSql s.db (printSql (insertText szDevId app)) } := by
        simp only [step, hpc, happ]
      obtain ⟨s', hr, hrest⟩ := insertApps_run
        (s := { s.setPc w (.inserting szDevId mem n (pAppInfo + sizeofAppInfo)) with
          db := e.execSql s.db (printSql (insertText szDevId app)) }) (Function.update_self ..) h
      refine ⟨s', ?_, hrest⟩
      rw [List.replicate_succ, Machine.run_cons]
      exact Option.bind_eq_some_iff.2 ⟨_, hs, hr⟩

/-- **A call that no other thread disturbs is `onExecuted`.** -/
theorem onExecuted_run {d : Dev} {r : CmdRec} (hw : s.adb.worker w = .executing d r) (hr : r.isReport = true)
    (hout : s.pc w = .out) {pbiResult : BufferItem} {apps : List AppInfo} {dwCount : DWORD} {db : Db}
    {notified : Option (List BYTE)} (hcount : dwordField pbiResult.mem (pbiResult.data + 8) = some dwCount)
    (h : onExecuted e.execSql (szId d) .getApplist pbiResult s.db = .ok (db, notified)) :
    ∃ s', (machine publicFlush e szId db₀).run s (.onExecuted w pbiResult apps ::
        (List.replicate dwCount.toNat (.insert w) ++ [.notify w])) = some s' ∧ s'.db = db ∧
      s'.notified = s.notified ++ notified.toList := by
  rw [onExecuted, if_pos rfl, hcount] at h
  dsimp only at h
  split at h
  · cases h
  · rename_i db' hins
    cases h
    let s₁ : AppRows Dev Db := { s with
      db := e.execSql s.db (printSql (deleteText (szId d)))
      reported := Function.update s.reported (szId d) (some apps), reports := s.reports ++ [szId d] }
    have hs : step publicFlush e szId s (.onExecuted w pbiResult apps) =
        some (s₁.setPc w (.inserting (szId d) pbiResult.mem dwCount.toNat (pbiResult.data + sizeofAppListHdr))) := by
      simp only [step, hw, hcount]
      exact if_pos ⟨hout, hr⟩
    obtain ⟨s₂, hloop, hdb, ⟨p, hpc⟩, hn⟩ := insertApps_run publicFlush szId db₀
      (s := s₁.setPc w _) (Function.update_self ..) hins
    refine ⟨{ s₂.setPc w .notified with notified := s₂.notified ++ [szId d] }, ?_, hdb, congrArg (· ++ [szId d]) hn⟩
    rw [Machine.run_cons]
    refine Option.bind_eq_some_iff.2 ⟨_, hs, ?_⟩
    rw [Machine.run_append]
    refine Option.bind_eq_some_iff.2 ⟨s₂, hloop, ?_⟩
    rw [Machine.run_cons]
    refine Option.bind_eq_some_iff.2 ⟨_, ?_, rfl⟩
    show step publicFlush e szId s₂ (.notify w) = _
    simp only [step, hpc]

/-! ### The statements -/

section
variable {db : Db} {szDevId x : List BYTE} {app : AppInfo}

/-- The deletion takes out the device's rows alone. -/
theorem filter_delete (he : e.Lawful) (hlen : szDevId.length < maxDevIdLen) (h39 : 39 ∉ szDevId) :
    (e.tabletApps (e.execSql db (printSql (deleteText szDevId)))).filter (·.tabletSerial = x) =
      if x = szDevId then 0 else (e.tabletApps db).filter (·.tabletSerial = x) := by
  rw [he.delete _ _ _ ((lex_deleteText hlen).2 h39), Multiset.filter_filter]
  split
  · rename_i hx
    subst hx
    exact Multiset.filter_eq_nil.2 fun row _ hrow => hrow.2 hrow.1
  · rename_i hx
    refine Multiset.filter_congr fun row _ => and_iff_left_of_imp ?_
    rintro rfl
    exact hx

/-- An insertion adds to the device's rows alone. -/
theorem filter_insert (he : e.Lawful) (hq : Quotable szDevId app)
    (hnew : ∀ r ∈ (e.tabletApps db).filter (·.tabletSerial = szDevId), r.appApkName ≠ app.szLongName) :
    (e.tabletApps (e.execSql db (printSql (insertText szDevId app)))).filter (·.tabletSerial = x) =
      if x = szDevId then appRow szDevId app ::ₘ (e.tabletApps db).filter (·.tabletSerial = x)
      else (e.tabletApps db).filter (·.tabletSerial = x) := by
  rw [tabletApps_insert he hq fun r hr hserial => hnew r (Multiset.mem_filter.2 ⟨hr, hserial⟩)]
  split
  · rename_i hx
    exact Multiset.filter_cons_of_pos _ hx.symm
  · rename_i hx
    exact Multiset.filter_cons_of_neg _ fun hn => hx hn.symm

end

/-! ### Every step -/

theorem Inv.adb (h : Inv e db₀ s) {b : AdbStep Dev} {adb : AdbState Dev} (hb : s.allowed b = true)
    (hs : s.adb.step publicFlush b = some adb) : Inv e db₀ { s with adb := adb } where
  routed := h.routed.step hs
  busy := by
    intro w hw
    obtain ⟨d, r, hd, hr⟩ := h.busy w hw
    refine ⟨d, r, AdbState.executing_step hd hs ?_, hr⟩
    rintro dwRet rfl
    simp only [allowed, Bool.and_eq_true, beq_iff_eq] at hb
    exact hw hb.1
  fine := h.fine
  rows := h.rows.congr (fun _ => rfl) rfl rfl rfl

omit [DecidableEq Dev] in
/-- A step of the thread that is, or goes, into `OnExecuted`. -/
theorem Inv.moved (h : Inv e db₀ s) {pc : ReportPc} (hadb : s'.adb = s.adb) (hpc : s'.pc = Function.update s.pc 1 pc)
    (hfine : s'.overread = s.overread) (hbusy : ∃ d r, s.adb.worker 1 = .executing d r ∧ r.isReport = true)
    (hrows : At e db₀ s' pc) : Inv e db₀ s' where
  routed := by
    rw [hadb]
    exact h.routed
  busy w hw := by
    rw [hpc] at hw
    rw [hadb]
    by_cases hw1 : w = 1
    · subst hw1
      exact hbusy
    · rw [Function.update_of_ne hw1] at hw
      exact h.busy w hw
  fine := hfine.trans h.fine
  rows := by
    rw [hpc, Function.update_self]
    exact hrows

/-- **`OnExecuted` is called**: the device's rows are out, and its list is to go in. -/
theorem Inv.onExecuted (he : e.Lawful) (h : Inv e db₀ s) {pbiResult : BufferItem} {apps : List AppInfo}
    (hok : Sound szId s (.onExecuted w pbiResult apps))
    (hs : step publicFlush e szId s (.onExecuted w pbiResult apps) = some s') : Inv e db₀ s' := by
  simp only [step] at hs
  split at hs
  · rename_i d r hw
    split at hs
    · rename_i hg
      obtain ⟨hout, hr⟩ := hg
      obtain ⟨hlen, h39, hlist, hquot, hnodup⟩ := hok d r hw
      obtain ⟨dwCount, hcount, hn⟩ := hlist.dwCount
      have h1 := h.routed.report hw hr
      subst h1
      have hrows := h.rows
      rw [hout] at hrows
      rw [show dwordField pbiResult.mem (pbiResult.data + 8) = some dwCount from hcount] at hs
      cases hs
      refine h.moved rfl rfl rfl ⟨d, r, hw, hr⟩ ⟨congrArg (· ++ [szId d]) hrows.1, ⟨[], apps, ?_⟩, fun x hx => ?_⟩
      · refine ⟨Function.update_self .., hn.symm, hlist.appInfo, hquot, hnodup, ?_⟩
        exact (filter_delete he hlen h39).trans (if_pos rfl)
      · refine (filter_delete he hlen h39).trans ((if_neg hx).trans ((hrows.2 x).trans ?_))
        exact congrArg (kept e db₀ x) (Function.update_of_ne hx ..).symm
    · cases hs
  · cases hs

/-- **One pass of the loop.** -/
theorem Inv.insert (he : e.Lawful) (h : Inv e db₀ s) (hs : step publicFlush e szId s (.insert w) = some s') :
    Inv e db₀ s' := by
  simp only [step] at hs
  split at hs
  · rename_i szDevId mem n pAppInfo hpc
    have h1 := h.alone (w := w) (by rw [hpc]; simp)
    subst h1
    have hrows := h.rows
    rw [hpc] at hrows
    obtain ⟨hr, ⟨done, todo, hl⟩, hx⟩ := hrows
    cases todo with
    | nil => cases hl.left
    | cons app todo =>
      rw [show appInfoAt mem pAppInfo = some app from hl.appInfo 0 (Nat.zero_lt_succ _)] at hs
      cases hs
      have hq := hl.quotable app List.mem_cons_self
      have hrows : (e.tabletApps s.db).filter (·.tabletSerial = szDevId) = ↑(done.map (appRow szDevId)) := hl.rows
      have hnew : ∀ r ∈ (e.tabletApps s.db).filter (·.tabletSerial = szDevId), r.appApkName ≠ app.szLongName := by
        -- the rows of the device are the records before this one
        intro r hr hpackage
        rw [hrows] at hr
        obtain ⟨y, hy, rfl⟩ := List.mem_map.1 (Multiset.mem_coe.1 hr)
        have hnodup := hl.nodup
        rw [List.map_append, List.map_cons] at hnodup
        exact (List.nodup_append.1 hnodup).2.2 _ (List.mem_map_of_mem hy) _ List.mem_cons_self hpackage
      refine h.moved rfl rfl rfl (h.busy 1 (by rw [hpc]; simp)) ⟨hr, ⟨done ++ [app], todo, ?_⟩, fun x hne => ?_⟩
      · constructor
        · exact hl.reported.trans (by rw [List.append_assoc, List.singleton_append])
        · exact Nat.succ.inj hl.left
        · intro i hi
          rw [Nat.add_assoc, Nat.add_comm sizeofAppInfo, ← Nat.mul_succ]
          exact hl.appInfo (i + 1) (Nat.succ_lt_succ hi)
        · exact fun y hy => hl.quotable y (List.mem_cons_of_mem _ hy)
        · rw [List.append_assoc, List.singleton_append]
          exact hl.nodup
        · refine (filter_insert he hq hnew).trans ((if_pos rfl).trans ?_)
          rw [hrows, Multiset.cons_coe, List.map_append]
          exact Multiset.coe_eq_coe.2 (List.perm_append_singleton ..).symm
      · exact (filter_insert he hq hnew).trans ((if_neg hne).trans (hx x hne))
  · cases hs

/-- **`Notify` finds the whole list.** -/
theorem Inv.notify (h : Inv e db₀ s) (hs : step publicFlush e szId s (.notify w) = some s') : Inv e db₀ s' := by
  simp only [step] at hs
  split at hs
  · rename_i szDevId mem pAppInfo hpc
    cases hs
    have h1 := h.alone (w := w) (by rw [hpc]; simp)
    subst h1
    have hrows := h.rows
    rw [hpc] at hrows
    obtain ⟨hr, ⟨done, todo, hl⟩, hx⟩ := hrows
    refine h.moved rfl rfl rfl (h.busy 1 (by rw [hpc]; simp)) ⟨hr, fun x => ?_⟩
    by_cases hxe : x = szDevId
    · subst hxe
      have hkept : kept e db₀ x (s.reported x) = ↑(done.map (appRow x)) := by
        rw [hl.reported, List.length_eq_zero_iff.1 hl.left, List.append_nil]
        rfl
      exact hl.rows.trans hkept.symm
    · exact hx x hxe
  · cases hs

theorem Inv.returned (h : Inv e db₀ s) (hs : step publicFlush e szId s (.returned w) = some s') : Inv e db₀ s' := by
  simp only [step] at hs
  split at hs
  · rename_i hpc
    obtain ⟨adb, hadb, rfl⟩ := Option.map_eq_some_iff.1 hs
    have h1 := h.alone (w := w) (by rw [hpc]; simp)
    subst h1
    have hrows := h.rows
    rw [hpc] at hrows
    refine ⟨h.routed.step hadb, fun w' hw' => ?_, h.fine, ?_⟩
    · by_cases he' : w' = 1
      · exact absurd (he' ▸ Function.update_self ..) hw'
      · exact absurd (h.alone (by simpa [setPc, he'] using hw')) he'
    · have hpc' : (s.setPc 1 .out).pc 1 = .out := by simp [setPc]
      exact hpc' ▸ hrows
  · cases hs

theorem Inv.step (he : e.Lawful) (h : Inv e db₀ s) (hok : Sound szId s a)
    (hs : step publicFlush e szId s a = some s') : Inv e db₀ s' := by
  cases a with
  | adb b =>
    simp only [AppRows.step] at hs
    split at hs
    · obtain ⟨adb, hadb, rfl⟩ := Option.map_eq_some_iff.1 hs
      exact h.adb ‹_› hadb
    · cases hs
  | otherSql sql =>
    obtain ⟨hsql, rfl⟩ := guard_some hs
    refine ⟨h.routed, h.busy, h.fine, h.rows.congr (fun x => ?_) rfl rfl rfl⟩
    exact congrArg (Multiset.filter _) hsql
  | onExecuted w pbiResult apps => exact h.onExecuted he hok hs
  | insert w => exact h.insert he hs
  | notify w => exact h.notify hs
  | returned w => exact h.returned hs

theorem inv_reach (he : e.Lawful) (h : (machine publicFlush e szId db₀).ReachWhen (Sound szId) s) : Inv e db₀ s := by
  refine Machine.ReachWhen.invariant ?_ (fun _ _ _ hi hok hs => hi.step he hok hs) h
  rintro s rfl
  exact ⟨AdbState.routed_start, fun w hw => absurd rfl hw, rfl, rfl, fun _ => rfl⟩

/-- **A device's rows are those of its last list**: in every run of the devices' command queues in which `OnExecuted` is
called with lists of different packages whose strings can be quoted, at most one thread is in it.  While it is in its
loop the device's rows are the first of its list, and all of them when `Notify` is called; when it is not at a device,
the rows of that are those of the list it was last called with, and with none what they were.  Each call has notified
once, in the order of the calls, but for the one in its loop. -/
theorem rows_reported (he : e.Lawful) (h : (machine publicFlush e szId db₀).ReachWhen (Sound szId) s) :
    s.overread = false ∧ (∀ w w', s.pc w ≠ .out → s.pc w' ≠ .out → w = w') ∧
    (∀ w szDevId mem n p, s.pc w = .inserting szDevId mem n p → s.reports = s.notified ++ [szDevId] ∧
      ∃ apps, s.reported szDevId = some apps ∧ n ≤ apps.length ∧
        s.rows e szDevId = ↑((apps.take (apps.length - n)).map (appRow szDevId))) ∧
    (∀ szDevId, (∀ w mem n p, s.pc w ≠ .inserting szDevId mem n p) → match s.reported szDevId with
      | none => s.rows e szDevId = (start db₀ : AppRows Dev Db).rows e szDevId
      | some apps => s.rows e szDevId = ↑(apps.map (appRow szDevId))) ∧
    ((∀ w szDevId mem n p, s.pc w ≠ .inserting szDevId mem n p) → s.reports = s.notified) := by
  have hi := inv_reach he h
  have hrows := hi.rows
  refine ⟨hi.fine, fun w w' hw hw' => (hi.alone hw).trans (hi.alone hw').symm, ?_, fun szDevId hnot => ?_,
    fun hnot => ?_⟩
  · intro w szDevId mem n p hpc
    have h1 := hi.alone (w := w) (by rw [hpc]; simp)
    subst h1
    rw [hpc] at hrows
    obtain ⟨hr, ⟨done, todo, hl⟩, -⟩ := hrows
    refine ⟨hr, done ++ todo, hl.reported, ?_, ?_⟩
    · rw [List.length_append, hl.left]
      exact Nat.le_add_left ..
    · rw [List.length_append, hl.left, Nat.add_sub_cancel, List.take_left]
      exact hl.rows
  · have hkept : s.rows e szDevId = kept e db₀ szDevId (s.reported szDevId) := by
      cases hpc : s.pc 1 with
      | out | notified =>
        rw [hpc] at hrows
        exact hrows.2 szDevId
      | inserting x mem n p =>
        rw [hpc] at hrows
        refine hrows.2.2 szDevId ?_
        rintro rfl
        exact hnot 1 mem n p hpc
    rw [hkept]
    split <;> rename_i hrep <;> rw [hrep] <;> rfl
  · cases hpc : s.pc 1 with
    | out | notified =>
      rw [hpc] at hrows
      exact hrows.1
    | inserting x mem n p => exact absurd hpc (hnot 1 x mem n p)

/-- A list of two applications, for a device that was there before with one of them under another name. -/
def reportRun : List (AppRowsStep Unit) := [.adb (.newDevice ()), .adb (.updateState () false),
  .adb (.queueCmd () 0 .getApplist .appTableMod), .adb (.request () 1), .adb (.post () 1), .adb (.loopTest 1),
  .adb (.wait 1), .adb (.test 1), .adb (.begin 1), .adb (.executeOne 1),
  .onExecuted 1 (appList [maps, camera]) [maps, camera], .insert 1, .insert 1, .notify 1,
  .returned 1, .adb (.next 1), .adb (.releaseDev 1)]

def earlierRows : Multiset AppRow := {appRow (ascii "8A9B") joesMaps, appRow (ascii "CAFE") maps}

theorem rows_reported_once : ∃ s,
    (machine false tableEngine (fun _ : Unit => ascii "8A9B") earlierRows).run (start earlierRows) reportRun = some s ∧
    s.rows tableEngine (ascii "8A9B") = {appRow (ascii "8A9B") maps, appRow (ascii "8A9B") camera} ∧
    s.rows tableEngine (ascii "CAFE") = {appRow (ascii "CAFE") maps} := by
  have hrun : ((machine false tableEngine (fun _ : Unit => ascii "8A9B") earlierRows).run (start earlierRows)
      reportRun).any (fun s => decide (∀ w, s.pc w = .out) && s.reported (ascii "8A9B") == some [maps, camera] &&
        s.reported (ascii "CAFE") == none) = true := by
    decide +kernel
  obtain ⟨s, hs, hend⟩ := (Option.any_eq_true ..).1 hrun
  simp only [Bool.and_eq_true, decide_eq_true_eq, beq_iff_eq] at hend
  obtain ⟨⟨hout, hrep⟩, hnone⟩ := hend
  have hok : ∀ a ∈ reportRun, ∀ s : AppRows Unit (Multiset AppRow), Sound (fun _ => ascii "8A9B") s a := by
    have hlen : (ascii "8A9B").length < maxDevIdLen := by decide
    have h39 : 39 ∉ ascii "8A9B" := by decide
    intro a ha s
    cases a with
    | onExecuted w pbiResult apps =>
      obtain ⟨-, rfl, rfl⟩ : w = 1 ∧ pbiResult = appList [maps, camera] ∧ apps = [maps, camera] := by
        simpa [reportRun] using ha
      exact fun _ _ _ => ⟨hlen, h39, isAppList_two, quotable_two, by decide⟩
    | _ => exact True.intro
  have hnot : ∀ szDevId w mem n p, s.pc w ≠ .inserting szDevId mem n p := fun szDevId w mem n p hpc => by
    rw [hout w] at hpc
    cases hpc
  have hrows := (rows_reported tableEngine_lawful (Machine.ReachWhen.run (.init rfl) hok hs)).2.2.2.1
  have h1 := hrows (ascii "8A9B") (hnot _)
  have h2 := hrows (ascii "CAFE") (hnot _)
  rw [hrep] at h1
  rw [hnone] at h2
  exact ⟨s, hs, h1, h2.trans (by decide +kernel)⟩

end AppRows

end DevMgr
