import DevMgr.AdbServe
/-!
# CmdTableMod — the rows of `op_requests`

The monitor thread of `CmdTableMod.cpp` selects the rows that are neither done nor taken and gives them one by one to
`ProcessCmd`, which queues a command on the row's device and then marks the row as taken; the threads that serve the
device queues call the object's `OnExecuting`, `OnExecuted`, `OnFailed` and `OnCancelled`, each of which updates the row
the command came from.  The machine runs beside that of the device queues (`adb`).

A statement of SQL is one step and succeeds.  The ids are below 2^31, so `atoi` and `%u` give them back.  What the
columns for the command and the device come to are labels.  `QueueCmd` counts as returned once the record is queued;
`passed` are the ids given to it.
-/
namespace DevMgr

open Machines

structure OpRequest where
  id : Nat
  isProcessing : Nat
  isDone : Nat
  result : Nat
  deriving DecidableEq, Repr

/-- Where the monitor thread is: in `sem_wait`; before `FetchRow`, with the rows of its result still to come; or in
`ProcessCmd`, before `GetDevice`, `ConvertArgs`, `QueueCmd`, the update or the `Release`. -/
inductive MonPc (Dev : Type) where
  | idle
  | fetching (rows : List Nat)
  | lookup (dwIdx : Nat) (rows : List Nat)
  | converting (dwIdx : Nat) (pDevice : Dev) (rows : List Nat)
  | queueing (dwIdx : Nat) (cmdCode : DevCmdCode) (pDevice : Dev) (rows : List Nat)
  | updating (dwIdx : Nat) (dwRet : Nat) (pDevice : Option Dev) (rows : List Nat)
  | releasing (pDevice : Option Dev) (rows : List Nat)

structure CmdTableMod (Dev : Type) where
  adb : AdbState Dev
  rows : List OpRequest
  mon : MonPc Dev
  passed : List Nat

inductive CmdTableStep (Dev : Type) where
  | insert (id result : Nat)
  | adb (a : AdbStep Dev) (dwResult : Nat)
  | probe (sqlResult : List Nat)
  | fetch
  | getDevice (pDevice : Dev)
  | noDevice
  | convertArgs (cmdCode : Option DevCmdCode)
  | queueCmd
  | queueFails
  | update
  | release

namespace CmdTableMod

variable {Dev : Type}

/-- `update op_requests set … where id=dwIdx`. -/
def updateRow (rows : List OpRequest) (dwIdx : Nat) (set : OpRequest → OpRequest) : List OpRequest :=
  rows.map fun r => if r.id = dwIdx then set r else r

def updateResult (rows : List OpRequest) (dwIdx dwResult : Nat) : List OpRequest :=
  updateRow rows dwIdx fun r => { r with isDone := 1, result := dwResult }

/-- The observer's calls; `dwResult` is that of the `RET_COMM_HDR` given to `OnExecuted`. -/
def observe (rows : List OpRequest) (dwCmdIdx dwResult : Nat) : CmdEvent → List OpRequest
  | .onExecuting => updateRow rows dwCmdIdx fun r => { r with isProcessing := 2 }
  | .onExecuted => updateResult rows dwCmdIdx dwResult
  | .onFailed dwReason => updateResult rows dwCmdIdx dwReason
  | .onCancelled => updateResult rows dwCmdIdx errorCancelled

/-- The rows of `select * from op_requests where (is_done=0 and is_processing=0)`. -/
def waiting (r : OpRequest) : Bool := r.isDone == 0 && r.isProcessing == 0

/-- The update at the end of `ProcessCmd`. -/
def markTaken (rows : List OpRequest) (dwIdx dwRet : Nat) : List OpRequest :=
  if dwRet = errorSuccess then
    updateRow rows dwIdx fun r => if r.isProcessing = 0 then { r with isProcessing := 1 } else r
  else updateRow rows dwIdx fun r => { r with isProcessing := 1, isDone := 1, result := dwRet }

/-- The commands `ConvertArgs` has a case for; `none` is a number that is no code. -/
def convertArgs : Option DevCmdCode → Option DevCmdCode
  | some .installApp => some .installApp
  | some .installInfoview => some .installInfoview
  | some .uninstallApp => some .uninstallApp
  | some .pushFile => some .pushFile
  | some .pullFile => some .pullFile
  | some .labelShow => some .labelShow
  | some .delFile => some .delFile
  | _ => none

/-- A `QueueCmd` call made by `ProcessCmd`. -/
def ownCall : AdbStep Dev → Bool
  | .queueCmd _ _ _ pObserver => pObserver == .cmdTableMod
  | _ => false

variable [DecidableEq Dev]

def step (s : CmdTableMod Dev) : CmdTableStep Dev → Option (CmdTableMod Dev)
  | .insert id result => if id ∈ s.rows.map OpRequest.id then none
    else some { s with rows := s.rows ++ [⟨id, 0, 0, result⟩] }
  | .adb a dwResult => if ownCall a then none else match AdbState.step false s.adb a with
    | none => none
    | some adb => some { s with
        adb := adb
        rows := match s.adb.callback a with
          | some (r, e) => if r.pObserver = .cmdTableMod then observe s.rows r.dwIdx dwResult e else s.rows
          | none => s.rows }
  | .probe sqlResult => match s.mon with
    | .idle => if sqlResult.Perm ((s.rows.filter waiting).map OpRequest.id) then
        some { s with mon := .fetching sqlResult }
      else none
    | _ => none
  | .fetch => match s.mon with
    | .fetching [] => some { s with mon := .idle }
    | .fetching (dwIdx :: rows) => some { s with mon := .lookup dwIdx rows }
    | _ => none
  | .getDevice pDevice => match s.mon with
    | .lookup dwIdx rows => match AdbState.step false s.adb (.addRef pDevice) with
      | none => none
      | some adb => some { s with adb := adb, mon := .converting dwIdx pDevice rows }
    | _ => none
  | .noDevice => match s.mon with
    | .lookup dwIdx rows => some { s with mon := .updating dwIdx errorNotFound none rows }
    | _ => none
  | .convertArgs cmdCode => match s.mon with
    | .converting dwIdx pDevice rows => some { s with mon := match convertArgs cmdCode with
        | some cmdCode => .queueing dwIdx cmdCode pDevice rows
        | none => .updating dwIdx errorNotSupported (some pDevice) rows }
    | _ => none
  | .queueCmd => match s.mon with
    | .queueing dwIdx cmdCode pDevice rows =>
      match AdbState.step false s.adb (.queueCmd pDevice dwIdx cmdCode .cmdTableMod) with
      | none => none
      | some adb => some { s with
          adb := adb, passed := s.passed ++ [dwIdx], mon := .updating dwIdx errorSuccess (some pDevice) rows }
    | _ => none
  | .queueFails => match s.mon with
    | .queueing dwIdx _ pDevice rows =>
      some { s with passed := s.passed ++ [dwIdx], mon := .updating dwIdx errorOutOfMemory (some pDevice) rows }
    | _ => none
  | .update => match s.mon with
    | .updating dwIdx dwRet pDevice rows =>
      some { s with rows := markTaken s.rows dwIdx dwRet, mon := .releasing pDevice rows }
    | _ => none
  | .release => match s.mon with
    | .releasing none rows => some { s with mon := .fetching rows }
    | .releasing (some pDevice) rows => match AdbState.step false s.adb (.release pDevice) with
      | none => none
      | some adb => some { s with adb := adb, mon := .fetching rows }
    | _ => none

/-- After `Load` truncated the table. -/
def start : CmdTableMod Dev := { adb := .start, rows := [], mon := .idle, passed := [] }

def machine (Dev : Type) [DecidableEq Dev] : Machine (CmdTableMod Dev) (CmdTableStep Dev) where
  init s := s = start
  step := step

end CmdTableMod

/-! ## Where a row is -/

/-- The ids still to be given to `QueueCmd` in this round. -/
def MonPc.ahead {Dev : Type} : MonPc Dev → List Nat
  | .fetching rows => rows
  | .lookup dwIdx rows | .converting dwIdx _ rows | .queueing dwIdx _ _ rows => dwIdx :: rows
  | .updating _ _ _ rows | .releasing _ rows => rows
  | .idle => []

/-- The update to come, and its `dwRet`. -/
def MonPc.upd {Dev : Type} : MonPc Dev → Option (Nat × Nat)
  | .updating dwIdx dwRet _ _ => some (dwIdx, dwRet)
  | _ => none

namespace CmdTableMod

variable {Dev : Type} [DecidableEq Dev] {s s' : CmdTableMod Dev} {row : OpRequest}

/-- The record `r` of a device queue came from row `id`. -/
def RecOf (s : CmdTableMod Dev) (id : Nat) (d : Dev) (q : Queue) (r : CmdRec) : Prop :=
  r ∈ s.adb.queued d q ∧ r.dwIdx = id ∧ r.pObserver = .cmdTableMod

/-- The columns of a row whose record's observer was called with `es`; `due` is whether its `is_processing=1` is to
come. -/
def Columns (es : List CmdEvent) (row : OpRequest) (due : Prop) : Prop :=
  (es = [] ∧ row.isDone = 0 ∧ (row.isProcessing = 1 ∨ (row.isProcessing = 0 ∧ due))) ∨
    (es = [.onExecuting] ∧ row.isDone = 0 ∧ row.isProcessing = 2) ∨
    (Complete es ∧ row.isDone = 1 ∧ row.isProcessing ≤ 2 ∧ (row.isProcessing = 0 → due))

/-- Where a row is: not yet given to `QueueCmd`; failed before that, and to be marked or marked so; or queued, once. -/
inductive RowAt (s : CmdTableMod Dev) (row : OpRequest) : Prop
  | untouched : row.isProcessing = 0 → row.isDone = 0 → row.id ∉ s.passed → (∀ d q r, ¬ RecOf s row.id d q r) →
      (∀ x, s.mon.upd ≠ some (row.id, x)) → RowAt s row
  | failing (dwRet : Nat) : dwRet ≠ errorSuccess → row.isProcessing = 0 → row.isDone = 0 →
      (∀ d q r, ¬ RecOf s row.id d q r) → s.mon.upd = some (row.id, dwRet) → row.id ∉ s.mon.ahead → RowAt s row
  | failed : row.isProcessing = 1 → row.isDone = 1 → (∀ d q r, ¬ RecOf s row.id d q r) →
      (∀ x, s.mon.upd ≠ some (row.id, x)) → row.id ∉ s.mon.ahead → RowAt s row
  | recorded (d : Dev) (q : Queue) (r : CmdRec) : RecOf s row.id d q r →
      (∀ d' q' r', RecOf s row.id d' q' r' → d' = d ∧ q' = q ∧ r' = r) →
      (∀ x, s.mon.upd = some (row.id, x) → x = errorSuccess) → row.id ∉ s.mon.ahead →
      Columns (s.adb.events d q r.pRec) row (s.mon.upd = some (row.id, errorSuccess)) → RowAt s row

structure Inv (s : CmdTableMod Dev) : Prop where
  exec : s.adb.ExecInv
  ids : (s.rows.map OpRequest.id).Nodup
  at_ : ∀ row ∈ s.rows, RowAt s row
  ahead : s.mon.ahead.Nodup
  aheadIn : ∀ id ∈ s.mon.ahead, id ∈ s.rows.map OpRequest.id
  passed : s.passed.Nodup
  passedIn : ∀ id ∈ s.passed, id ∈ s.rows.map OpRequest.id
  updIn : ∀ id x, s.mon.upd = some (id, x) → id ∈ s.rows.map OpRequest.id
  recIn : ∀ id d q r, RecOf s id d q r → id ∈ s.rows.map OpRequest.id

/-! ### The updates of a row -/

omit [DecidableEq Dev] in
theorem mem_updateRow {rows : List OpRequest} {dwIdx : Nat} {set : OpRequest → OpRequest} {row' : OpRequest} :
    row' ∈ updateRow rows dwIdx set ↔ ∃ row ∈ rows, (if row.id = dwIdx then set row else row) = row' := by
  simp [updateRow]

theorem ids_updateRow {rows : List OpRequest} {dwIdx : Nat} {set : OpRequest → OpRequest} (h : ∀ r, (set r).id = r.id) :
    (updateRow rows dwIdx set).map OpRequest.id = rows.map OpRequest.id := by
  rw [updateRow, List.map_map]
  refine List.map_congr_left fun r _ => ?_
  simp only [Function.comp]
  split
  · exact h r
  · rfl

def observed (dwResult : Nat) : CmdEvent → OpRequest → OpRequest
  | .onExecuting, r => { r with isProcessing := 2 }
  | .onExecuted, r => { r with isDone := 1, result := dwResult }
  | .onFailed dwReason, r => { r with isDone := 1, result := dwReason }
  | .onCancelled, r => { r with isDone := 1, result := errorCancelled }

theorem observe_eq (rows : List OpRequest) (dwIdx dwResult : Nat) (e : CmdEvent) :
    observe rows dwIdx dwResult e = updateRow rows dwIdx (observed dwResult e) := by cases e <;> rfl

def taken (dwRet : Nat) (r : OpRequest) : OpRequest :=
  if dwRet = errorSuccess then (if r.isProcessing = 0 then { r with isProcessing := 1 } else r)
  else { r with isProcessing := 1, isDone := 1, result := dwRet }

theorem markTaken_eq (rows : List OpRequest) (dwIdx dwRet : Nat) :
    markTaken rows dwIdx dwRet = updateRow rows dwIdx (taken dwRet) := by
  unfold markTaken taken
  split <;> rfl

@[simp] theorem observed_id (dwResult : Nat) (e : CmdEvent) (r : OpRequest) : (observed dwResult e r).id = r.id := by
  cases e <;> rfl

@[simp] theorem taken_id (dwRet : Nat) (r : OpRequest) : (taken dwRet r).id = r.id := by
  unfold taken
  split
  · split <;> rfl
  · rfl

end CmdTableMod

/-- How a row may change: `is_processing` grows, and a row that is done stays done with its result. -/
structure OpRequest.Le (row row' : OpRequest) : Prop where
  id : row'.id = row.id
  isProcessing : row.isProcessing ≤ row'.isProcessing
  isDone : row.isDone ≠ 0 → row'.isDone ≠ 0
  result : row.isDone ≠ 0 → row'.result = row.result

theorem OpRequest.Le.rfl {row : OpRequest} : row.Le row := ⟨Eq.refl _, Nat.le_refl _, fun hd => hd, fun _ => Eq.refl _⟩

theorem OpRequest.Le.trans {a b c : OpRequest} (h : a.Le b) (h' : b.Le c) : a.Le c where
  id := h'.id.trans h.id
  isProcessing := h.isProcessing.trans h'.isProcessing
  isDone := fun hd => h'.isDone (h.isDone hd)
  result := fun hd => (h'.result (h.isDone hd)).trans (h.result hd)

namespace CmdTableMod

variable {Dev : Type} [DecidableEq Dev] {s s' : CmdTableMod Dev} {row : OpRequest}

theorem updateRow_le {rows : List OpRequest} {dwIdx : Nat} {set : OpRequest → OpRequest}
    (h : ∀ row ∈ rows, row.id = dwIdx → row.Le (set row)) :
    ∀ row ∈ rows, ∃ row' ∈ updateRow rows dwIdx set, row.Le row' := by
  intro row hr
  refine ⟨_, mem_updateRow.2 ⟨row, hr, rfl⟩, ?_⟩
  split
  · exact h row hr ‹_›
  · exact .rfl

theorem not_complete_nil : ¬ Complete [] := by simp [Complete]

theorem not_complete_executing : ¬ Complete [.onExecuting] := by simp [Complete]

/-- **A call of the observer moves the columns on.** -/
theorem Columns.called {es : List CmdEvent} {e : CmdEvent} {due : Prop} (dwResult : Nat) (h : Columns es row due)
    (hc : AdbState.Called es e) :
    Columns (es ++ [e]) (observed dwResult e row) due ∧ row.Le (observed dwResult e row) := by
  rcases hc with ⟨rfl, he⟩ | ⟨rfl, he⟩
  · rcases h with ⟨-, hd, hp⟩ | ⟨hes, -⟩ | ⟨hes, -⟩
    · have hp2 : row.isProcessing ≤ 2 := by omega
      rcases he with rfl | rfl
      · refine ⟨.inr (.inr ⟨.inl rfl, rfl, hp2, fun h0 => ?_⟩), rfl, Nat.le_refl _, fun _ => Nat.one_ne_zero,
          fun hn => absurd hd hn⟩
        rcases hp with h1 | ⟨-, hdue⟩
        · exact absurd (h1.symm.trans h0) Nat.one_ne_zero
        · exact hdue
      · exact ⟨.inr (.inl ⟨rfl, hd, rfl⟩), rfl, hp2, fun hn => hn, fun _ => rfl⟩
    · cases hes
    · exact absurd hes not_complete_nil
  · rcases h with ⟨hes, -⟩ | ⟨-, hd, hp⟩ | ⟨hes, -⟩
    · cases hes
    · rcases he with rfl | ⟨dwReason, rfl⟩
      · exact ⟨.inr (.inr ⟨.inr (.inl rfl), rfl, hp.le, fun h0 => absurd (hp.symm.trans h0) (by decide)⟩), rfl,
          Nat.le_refl _, fun _ => Nat.one_ne_zero, fun hn => absurd hd hn⟩
      · exact ⟨.inr (.inr ⟨.inr (.inr ⟨dwReason, rfl⟩), rfl, hp.le, fun h0 => absurd (hp.symm.trans h0) (by decide)⟩),
          rfl, Nat.le_refl _, fun _ => Nat.one_ne_zero, fun hn => absurd hd hn⟩
    · exact absurd hes not_complete_executing

/-- **The update after a `QueueCmd` that queued** changes `is_processing` only where nobody else did. -/
theorem Columns.taken {es : List CmdEvent} {due : Prop} (due' : Prop) (h : Columns es row due) :
    Columns es (taken errorSuccess row) due' ∧ row.Le (CmdTableMod.taken errorSuccess row) := by
  unfold CmdTableMod.taken
  rw [if_pos rfl]
  by_cases h0 : row.isProcessing = 0
  · rw [if_pos h0]
    refine ⟨?_, rfl, by simp [h0], fun hn => hn, fun _ => rfl⟩
    rcases h with ⟨hes, hd, -⟩ | ⟨-, -, hp⟩ | ⟨hes, hd, -⟩
    · exact .inl ⟨hes, hd, .inl rfl⟩
    · exact absurd (h0.symm.trans hp) (by decide)
    · exact .inr (.inr ⟨hes, hd, by simp, fun hn => absurd hn Nat.one_ne_zero⟩)
  · rw [if_neg h0]
    refine ⟨?_, .rfl⟩
    rcases h with ⟨hes, hd, hp⟩ | h | ⟨hes, hd, hp, -⟩
    · exact .inl ⟨hes, hd, .inl (hp.resolve_right fun hn => h0 hn.1)⟩
    · exact .inr (.inl h)
    · exact .inr (.inr ⟨hes, hd, hp, fun hn => absurd hn h0⟩)

/-! ### What a step does to the rows -/

omit [DecidableEq Dev] in
/-- A row whose records, and whose part in the round, stay. -/
theorem RowAt.keep (h : RowAt s row) (hrec : ∀ d q r, RecOf s' row.id d q r ↔ RecOf s row.id d q r)
    (hev : ∀ d q r, RecOf s row.id d q r → s'.adb.events d q r.pRec = s.adb.events d q r.pRec)
    (hpassed : row.id ∈ s'.passed → row.id ∈ s.passed) (hahead : row.id ∈ s'.mon.ahead → row.id ∈ s.mon.ahead)
    (hupd : ∀ x, s'.mon.upd = some (row.id, x) ↔ s.mon.upd = some (row.id, x)) : RowAt s' row := by
  have hnone : (∀ d q r, ¬ RecOf s row.id d q r) → ∀ d q r, ¬ RecOf s' row.id d q r :=
    fun h d q r hr => h d q r ((hrec d q r).1 hr)
  have hno : (∀ x, s.mon.upd ≠ some (row.id, x)) → ∀ x, s'.mon.upd ≠ some (row.id, x) :=
    fun h x hx => h x ((hupd x).1 hx)
  cases h with
  | untouched h1 h2 h3 h4 h5 => exact .untouched h1 h2 (fun hp => h3 (hpassed hp)) (hnone h4) (hno h5)
  | failing dwRet h1 h2 h3 h4 h5 h6 =>
    exact .failing dwRet h1 h2 h3 (hnone h4) ((hupd dwRet).2 h5) fun hn => h6 (hahead hn)
  | failed h1 h2 h3 h4 h5 => exact .failed h1 h2 (hnone h3) (hno h4) fun hn => h5 (hahead hn)
  | recorded d q r h1 h2 h3 h4 h5 =>
    refine .recorded d q r ((hrec d q r).2 h1) (fun d' q' r' hr => h2 d' q' r' ((hrec d' q' r').1 hr))
      (fun x hx => h3 x ((hupd x).1 hx)) (fun hn => h4 (hahead hn)) ?_
    rw [hev d q r h1, show (s'.mon.upd = some (row.id, errorSuccess)) = (s.mon.upd = some (row.id, errorSuccess)) from
      propext (hupd _)]
    exact h5

omit [DecidableEq Dev] in
theorem recOf_congr (h : s'.adb.queued = s.adb.queued) (id : Nat) (d : Dev) (q : Queue) (r : CmdRec) :
    RecOf s' id d q r ↔ RecOf s id d q r := by
  unfold RecOf
  rw [h]

/-- A step that leaves the table, the records and the round. -/
theorem Inv.keep (h : Inv s) (hexec : s'.adb.ExecInv) (hq : s'.adb.queued = s.adb.queued)
    (he : s'.adb.events = s.adb.events) (hrows : s'.rows = s.rows) (hpassed : s'.passed = s.passed)
    (hahead : s'.mon.ahead = s.mon.ahead) (hupd : s'.mon.upd = s.mon.upd) : Inv s' where
  exec := hexec
  ids := by rw [hrows]; exact h.ids
  at_ := by
    intro row hr
    rw [hrows] at hr
    exact (h.at_ row hr).keep (recOf_congr hq row.id) (fun _ _ _ _ => by rw [he]) (by rw [hpassed]; exact id)
      (by rw [hahead]; exact id) fun x => by rw [hupd]
  ahead := by rw [hahead]; exact h.ahead
  aheadIn := by rw [hahead, hrows]; exact h.aheadIn
  passed := by rw [hpassed]; exact h.passed
  passedIn := by rw [hpassed, hrows]; exact h.passedIn
  updIn := by rw [hupd, hrows]; exact h.updIn
  recIn := by
    intro id d q r hr
    rw [hrows]
    exact h.recIn id d q r ((recOf_congr hq id d q r).1 hr)

theorem Inv.row_eq (h : Inv s) {row row' : OpRequest} (hr : row ∈ s.rows) (hr' : row' ∈ s.rows)
    (he : row.id = row'.id) :
    row = row' := List.inj_on_of_nodup_map h.ids hr hr' he

/-- **The next row of the round** was never given to `QueueCmd`. -/
theorem Inv.head_untouched (h : Inv s) {dwIdx : Nat} {rows : List Nat} (hahead : s.mon.ahead = dwIdx :: rows)
    (hupd : s.mon.upd = none) (hr : row ∈ s.rows) (he : row.id = dwIdx) : row.isProcessing = 0 ∧ row.isDone = 0 ∧
      row.id ∉ s.passed ∧ ∀ d q r, ¬ RecOf s row.id d q r := by
  have hmem : row.id ∈ s.mon.ahead := by
    rw [hahead, he]
    exact List.mem_cons_self
  cases h.at_ row hr with
  | untouched h1 h2 h3 h4 _ => exact ⟨h1, h2, h3, h4⟩
  | failing _ _ _ _ _ h5 _ =>
    rw [hupd] at h5
    cases h5
  | failed _ _ _ _ h5 => exact absurd hmem h5
  | recorded _ _ _ _ _ _ h4 _ => exact absurd hmem h4

theorem Inv.head_row (h : Inv s) {dwIdx : Nat} {rows : List Nat} (hahead : s.mon.ahead = dwIdx :: rows) :
    ∃ row ∈ s.rows, row.id = dwIdx :=
  List.mem_map.1 (h.aheadIn dwIdx (by rw [hahead]; exact List.mem_cons_self))

theorem Inv.head_fresh (h : Inv s) {dwIdx : Nat} {rows : List Nat} (hahead : s.mon.ahead = dwIdx :: rows)
    (hupd : s.mon.upd = none) : dwIdx ∉ s.passed := by
  obtain ⟨row, hr, rfl⟩ := h.head_row hahead
  exact (h.head_untouched hahead hupd hr rfl).2.2.1

/-- **A request that fails** before it is queued. -/
theorem Inv.fail (h : Inv s) {dwIdx dwRet : Nat} {rows passed : List Nat} {pDevice : Option Dev}
    (hahead : s.mon.ahead = dwIdx :: rows) (hupd : s.mon.upd = none) (hret : dwRet ≠ errorSuccess)
    (hpassed : passed = s.passed ∨ passed = s.passed ++ [dwIdx]) :
    Inv { s with passed := passed, mon := .updating dwIdx dwRet pDevice rows } where
  exec := h.exec
  ids := h.ids
  at_ := by
    intro row hr
    have hnd : (dwIdx :: rows).Nodup := hahead ▸ h.ahead
    by_cases he : row.id = dwIdx
    · obtain ⟨h1, h2, -, h4⟩ := h.head_untouched hahead hupd hr he
      refine .failing dwRet hret h1 h2 h4 (by rw [he]; rfl) ?_
      rw [he]
      exact (List.nodup_cons.1 hnd).1
    · refine (h.at_ row hr).keep (fun _ _ _ => .rfl) (fun _ _ _ _ => rfl) (fun hp => ?_) (fun ha => ?_) fun x => ?_
      · rcases hpassed with rfl | rfl
        · exact hp
        · exact (List.mem_append.1 hp).resolve_right (by simpa using he)
      · rw [hahead]
        exact List.mem_cons_of_mem _ ha
      · rw [hupd]
        simp [MonPc.upd, Ne.symm he]
  ahead := (List.nodup_cons.1 (hahead ▸ h.ahead)).2
  aheadIn := fun id hid => h.aheadIn id (by rw [hahead]; exact List.mem_cons_of_mem _ hid)
  passed := by
    rcases hpassed with rfl | rfl
    · exact h.passed
    · exact h.passed.append (List.nodup_singleton _) (List.disjoint_singleton.2 (h.head_fresh hahead hupd))
  passedIn := by
    rcases hpassed with rfl | rfl
    · exact h.passedIn
    · intro id hid
      rcases List.mem_append.1 hid with hid | hid
      · exact h.passedIn id hid
      · rw [List.mem_singleton.1 hid]
        exact h.aheadIn dwIdx (by rw [hahead]; exact List.mem_cons_self)
  updIn := by
    rintro id x ⟨⟩
    exact h.aheadIn dwIdx (by rw [hahead]; exact List.mem_cons_self)
  recIn := h.recIn

theorem Inv.insert (h : Inv s) {id result : Nat} (hid : id ∉ s.rows.map OpRequest.id) :
    Inv { s with rows := s.rows ++ [⟨id, 0, 0, result⟩] } where
  exec := h.exec
  ids := by
    rw [List.map_append]
    exact h.ids.append (List.nodup_singleton _) (List.disjoint_singleton.2 hid)
  at_ := by
    intro row hr
    rcases List.mem_append.1 hr with hr | hr
    · exact (h.at_ row hr).keep (fun _ _ _ => .rfl) (fun _ _ _ _ => rfl) (fun hp => hp) (fun ha => ha) fun _ => .rfl
    · obtain rfl := List.mem_singleton.1 hr
      exact .untouched rfl rfl (fun hp => hid (h.passedIn id hp)) (fun d q r hr => hid (h.recIn id d q r hr))
        fun x hx => hid (h.updIn id x hx)
  ahead := h.ahead
  aheadIn := fun i hi => by simp [h.aheadIn i hi]
  passed := h.passed
  passedIn := fun i hi => by simp [h.passedIn i hi]
  updIn := fun i x hx => by simp [h.updIn i x hx]
  recIn := fun i d q r hr => by simp [h.recIn i d q r hr]

/-- **The rows selected** were not given to `QueueCmd`: a row that was is done or taken, unless its
update is to come. -/
theorem Inv.probe (h : Inv s) {sqlResult : List Nat} (hmon : s.mon = .idle)
    (hp : sqlResult.Perm ((s.rows.filter waiting).map OpRequest.id)) : Inv { s with mon := .fetching sqlResult } where
  exec := h.exec
  ids := h.ids
  at_ := by
    intro row hr
    have hidle : s.mon.upd = none := by rw [hmon]; rfl
    have hnot : ¬ (row.isDone = 0 ∧ row.isProcessing = 0) → row.id ∉ sqlResult := by
      intro hw hmem
      obtain ⟨row', hr', he⟩ := List.mem_map.1 (hp.mem_iff.1 hmem)
      obtain ⟨hr', hw'⟩ := List.mem_filter.1 hr'
      obtain rfl := h.row_eq hr' hr he
      exact hw (by simpa [waiting] using hw')
    cases h.at_ row hr with
    | untouched h1 h2 h3 h4 _ => exact .untouched h1 h2 h3 h4 nofun
    | failing _ _ _ _ _ h5 _ =>
      rw [hidle] at h5
      cases h5
    | failed h1 h2 h3 _ _ => exact .failed h1 h2 h3 nofun (hnot fun hn => Nat.one_ne_zero (h2.symm.trans hn.1))
    | recorded d q r h1 h2 _ _ h5 =>
      rw [hidle] at h5
      refine .recorded d q r h1 h2 nofun (hnot ?_) ?_
      · rintro ⟨hd, hpr⟩
        rcases h5 with ⟨-, -, h1 | ⟨-, hn⟩⟩ | ⟨-, -, h1⟩ | ⟨-, h1, -⟩
        · exact Nat.one_ne_zero (h1.symm.trans hpr)
        · cases hn
        · exact Nat.succ_ne_zero 1 (h1.symm.trans hpr)
        · exact Nat.one_ne_zero (h1.symm.trans hd)
      · exact h5
  ahead := hp.nodup_iff.2 (h.ids.sublist (List.filter_sublist.map _))
  aheadIn := by
    intro id hid
    obtain ⟨row, hr, rfl⟩ := List.mem_map.1 (hp.mem_iff.1 hid)
    exact List.mem_map_of_mem (List.mem_filter.1 hr).1
  passed := h.passed
  passedIn := h.passedIn
  updIn := nofun
  recIn := h.recIn

theorem recOf_queued {d₀ : Dev} {q₀ : Queue} {new : CmdRec}
    (hq : s'.adb.queued = upd₂ s.adb.queued d₀ q₀ (s.adb.queued d₀ q₀ ++ [new])) (id : Nat) (d : Dev) (q : Queue)
    (r : CmdRec) : RecOf s' id d q r ↔
      RecOf s id d q r ∨ ((d = d₀ ∧ q = q₀ ∧ r = new) ∧ new.dwIdx = id ∧ new.pObserver = .cmdTableMod) := by
  unfold RecOf
  rw [hq, upd₂_apply]
  split
  · rename_i hc
    obtain ⟨rfl, rfl⟩ := hc
    rw [List.mem_append, List.mem_singleton, or_and_right]
    refine or_congr_right ⟨?_, ?_⟩
    · rintro ⟨rfl, hid, ho⟩
      exact ⟨⟨rfl, rfl, rfl⟩, hid, ho⟩
    · rintro ⟨⟨-, -, rfl⟩, hid, ho⟩
      exact ⟨rfl, hid, ho⟩
  · rename_i hc
    exact (or_iff_left fun hn => hc ⟨hn.1.1, hn.1.2.1⟩).symm

/-- **`QueueCmd` queues the one record of its row.** -/
theorem Inv.queueCmd (h : Inv s) {dwIdx : Nat} {rows : List Nat} {cmdCode : DevCmdCode} {pDevice : Dev}
    {adb : AdbState Dev}
    (hahead : s.mon.ahead = dwIdx :: rows) (hupd : s.mon.upd = none)
    (hs : AdbState.step false s.adb (.queueCmd pDevice dwIdx cmdCode .cmdTableMod) = some adb) :
    Inv { s with
      adb := adb, passed := s.passed ++ [dwIdx], mon := .updating dwIdx errorSuccess (some pDevice) rows } := by
  have hexec := h.exec.step hs
  obtain ⟨-, rfl⟩ := guard_some hs
  have hnd : (dwIdx :: rows).Nodup := hahead ▸ h.ahead
  have hfresh := h.head_fresh hahead hupd
  obtain ⟨row₀, hr₀, hid₀⟩ := h.head_row hahead
  have hhead : dwIdx ∈ s.rows.map OpRequest.id := List.mem_map.2 ⟨row₀, hr₀, hid₀⟩
  obtain ⟨s', hs'⟩ : ∃ s' : CmdTableMod Dev, s' = { s with
      adb := s.adb.queueCmd pDevice (adbCmdQueueMap cmdCode) dwIdx cmdCode .cmdTableMod
      passed := s.passed ++ [dwIdx], mon := .updating dwIdx errorSuccess (some pDevice) rows } := ⟨_, rfl⟩
  rw [← hs']
  have hrec := @recOf_queued Dev _ s s' _ _ _ (by rw [hs']; rfl)
  refine ⟨by rw [hs']; exact hexec, by rw [hs']; exact h.ids, fun row hr => ?_, ?_, ?_, ?_, ?_, ?_, ?_⟩
  · rw [hs'] at hr
    by_cases he : row.id = dwIdx
    · obtain ⟨h1, h2, -, h4⟩ := h.head_untouched hahead hupd hr he
      have hsv := h.exec.served pDevice (adbCmdQueueMap cmdCode)
      refine .recorded _ _ _ ((hrec _ _ _ _).2 (.inr ⟨⟨rfl, rfl, rfl⟩, he.symm, rfl⟩)) (fun d q r hr => ?_)
        (fun x hx => ?_)
        ?_ (.inl ⟨?_, h2, .inr ⟨h1, ?_⟩⟩)
      · exact (((hrec _ _ _ _).1 hr).resolve_left (h4 d q r)).1
      · rw [hs', he] at hx
        exact (Prod.mk.inj (Option.some.inj hx)).2.symm
      · rw [hs', he]
        exact (List.nodup_cons.1 hnd).1
      · rw [hs']
        refine hsv.fresh _ ?_
        rw [hsv.order, List.length_append]
        exact Nat.le_add_right ..
      · rw [hs', he]
        rfl
    · refine (h.at_ row hr).keep (fun d q r => ?_) (fun _ _ _ _ => by rw [hs']; rfl) (fun hp => ?_)
        (fun ha => ?_) fun x => ?_
      · rw [hrec]
        exact or_iff_left fun hn => he hn.2.1.symm
      · rw [hs'] at hp
        exact (List.mem_append.1 hp).resolve_right (by simpa using he)
      · rw [hs'] at ha
        rw [hahead]
        exact List.mem_cons_of_mem _ ha
      · rw [hupd, hs']
        simp [MonPc.upd, Ne.symm he]
  · rw [hs']
    exact (List.nodup_cons.1 hnd).2
  · rw [hs']
    exact fun id hid => h.aheadIn id (by rw [hahead]; exact List.mem_cons_of_mem _ hid)
  · rw [hs']
    exact h.passed.append (List.nodup_singleton _) (List.disjoint_singleton.2 hfresh)
  · rw [hs']
    intro id hid
    rcases List.mem_append.1 hid with hid | hid
    · exact h.passedIn id hid
    · rwa [List.mem_singleton.1 hid]
  · rw [hs']
    rintro id x ⟨⟩
    exact hhead
  · intro id d q r hr
    rw [hs']
    rcases (hrec _ _ _ _).1 hr with hr | ⟨-, rfl, -⟩
    · exact h.recIn id d q r hr
    · exact hhead

/-- **The update at the end of `ProcessCmd`.** -/
theorem Inv.update (h : Inv s) {dwIdx dwRet : Nat} {pDevice : Option Dev} {rows : List Nat}
    (hmon : s.mon = .updating dwIdx dwRet pDevice rows) :
    Inv { s with rows := markTaken s.rows dwIdx dwRet, mon := .releasing pDevice rows } ∧
      ∀ row ∈ s.rows, ∃ row' ∈ markTaken s.rows dwIdx dwRet, row.Le row' := by
  have hupd : s.mon.upd = some (dwIdx, dwRet) := by rw [hmon]; rfl
  have hahead : s.mon.ahead = rows := by rw [hmon]; rfl
  have hids : (markTaken s.rows dwIdx dwRet).map OpRequest.id = s.rows.map OpRequest.id := by
    rw [markTaken_eq]
    exact ids_updateRow (taken_id dwRet)
  -- what becomes of the row the update is about
  have hrow : ∀ row ∈ s.rows, row.id = dwIdx → row.Le (taken dwRet row) ∧
      RowAt { s with rows := markTaken s.rows dwIdx dwRet, mon := .releasing pDevice rows } (taken dwRet row) := by
    rintro row hr rfl
    cases h.at_ row hr with
    | untouched _ _ _ _ h5 => exact absurd hupd (h5 dwRet)
    | failed _ _ _ h4 _ => exact absurd hupd (h4 dwRet)
    | failing x h1 h2 h3 h4 h5 h6 =>
      obtain rfl := (Prod.mk.inj (Option.some.inj (hupd.symm.trans h5))).2
      have ht : taken dwRet row = { row with isProcessing := 1, isDone := 1, result := dwRet } := if_neg h1
      rw [ht]
      rw [hahead] at h6
      exact ⟨⟨rfl, h2.trans_le (Nat.zero_le _), fun _ => Nat.one_ne_zero, fun hn => absurd h3 hn⟩,
        .failed rfl rfl h4 nofun h6⟩
    | recorded d q r h1 h2 h3 h4 h5 =>
      obtain rfl := h3 dwRet hupd
      rw [hahead] at h4
      refine ⟨(h5.taken False).2, .recorded d q r ?_ ?_ nofun ?_ (h5.taken _).1⟩
      · rw [taken_id]
        exact h1
      · rw [taken_id]
        exact h2
      · rw [taken_id]
        exact h4
  refine ⟨⟨h.exec, by rw [hids]; exact h.ids, fun row' hr' => ?_, hahead ▸ h.ahead, ?_, h.passed, ?_, nofun, ?_⟩, ?_⟩
  · rw [markTaken_eq] at hr'
    obtain ⟨row, hr, rfl⟩ := mem_updateRow.1 hr'
    by_cases he : row.id = dwIdx
    · rw [if_pos he]
      exact (hrow row hr he).2
    · rw [if_neg he]
      refine (h.at_ row hr).keep (fun _ _ _ => .rfl) (fun _ _ _ _ => rfl) (fun hp => hp)
        (fun ha => by rwa [hahead]) fun x => ?_
      rw [hupd]
      simp [MonPc.upd, Ne.symm he]
  · rw [hids]
    exact hahead ▸ h.aheadIn
  · rw [hids]
    exact h.passedIn
  · rw [hids]
    exact h.recIn
  · rw [markTaken_eq]
    exact updateRow_le fun row hr he => (hrow row hr he).1

/-- Two records of one number in a device queue are one. -/
theorem Inv.rec_eq (h : Inv s) {d : Dev} {q : Queue} {r r' : CmdRec} (hr : r ∈ s.adb.queued d q)
    (hr' : r' ∈ s.adb.queued d q) (he : r.pRec = r'.pRec) : r = r' :=
  List.inj_on_of_nodup_map (h.exec.served d q).nodup hr hr' he

/-- The other records' events after a call of an observer. -/
theorem Inv.events_other (h : Inv s) {d d' : Dev} {q q' : Queue} {r r' : CmdRec} {es : List CmdEvent}
    (hr : r ∈ s.adb.queued d q) (hr' : r' ∈ s.adb.queued d' q') (hne : ¬ (d' = d ∧ q' = q ∧ r' = r)) :
    upd₂ s.adb.events d q (Function.update (s.adb.events d q) r.pRec es) d' q' r'.pRec =
      s.adb.events d' q' r'.pRec := by
  rw [upd₂_apply]
  split
  · rename_i hc
    obtain ⟨rfl, rfl⟩ := hc
    exact Function.update_of_ne (fun hn => hne ⟨rfl, rfl, h.rec_eq hr' hr hn⟩) ..
  · rfl

/-- **A call of the table's observer** is about the one record of a row. -/
theorem Inv.observe (h : Inv s) {adb : AdbState Dev} {d : Dev} {q : Queue} {r : CmdRec} {e : CmdEvent} (dwResult : Nat)
    (hexec : adb.ExecInv) (hr : r ∈ s.adb.queued d q) (ho : r.pObserver = .cmdTableMod)
    (hc : AdbState.Called (s.adb.events d q r.pRec) e) (hq : adb.queued = s.adb.queued)
    (he : adb.events =
      upd₂ s.adb.events d q (Function.update (s.adb.events d q) r.pRec (s.adb.events d q r.pRec ++ [e]))) :
    Inv { s with adb := adb, rows := observe s.rows r.dwIdx dwResult e } ∧
      ∀ row ∈ s.rows, ∃ row' ∈ observe s.rows r.dwIdx dwResult e, row.Le row' := by
  have hids : (CmdTableMod.observe s.rows r.dwIdx dwResult e).map OpRequest.id = s.rows.map OpRequest.id := by
    rw [observe_eq]
    exact ids_updateRow (observed_id dwResult e)
  have hrec : ∀ (s' : CmdTableMod Dev), s'.adb = adb → ∀ id d' q' r', RecOf s' id d' q' r' ↔ RecOf s id d' q' r' := by
    rintro s' rfl
    exact recOf_congr hq
  -- the row of the record
  have hrow : ∀ row ∈ s.rows, row.id = r.dwIdx → row.Le (observed dwResult e row) ∧
      RowAt { s with adb := adb, rows := CmdTableMod.observe s.rows r.dwIdx dwResult e } (observed dwResult e row) := by
    intro row hrow hid
    have hown : RecOf s row.id d q r := ⟨hr, hid.symm, ho⟩
    cases h.at_ row hrow with
    | untouched _ _ _ h4 _ => exact absurd hown (h4 d q r)
    | failing _ _ _ _ h4 _ _ => exact absurd hown (h4 d q r)
    | failed _ _ h3 _ _ => exact absurd hown (h3 d q r)
    | recorded d₁ q₁ r₁ h1 h2 h3 h4 h5 =>
      obtain ⟨rfl, rfl, rfl⟩ := h2 d q r hown
      obtain ⟨h6, h7⟩ := h5.called dwResult hc
      refine ⟨h7, .recorded d q r ?_ ?_ ?_ ?_ ?_⟩
      · rw [observed_id]
        exact (hrec _ rfl _ _ _ _).2 h1
      · rw [observed_id]
        exact fun d' q' r' hr' => h2 d' q' r' ((hrec _ rfl _ _ _ _).1 hr')
      · rw [observed_id]
        exact h3
      · rw [observed_id]
        exact h4
      · rw [observed_id, he, upd₂_self, Function.update_self]
        exact h6
  refine ⟨⟨hexec, by rw [hids]; exact h.ids, fun row' hr' => ?_, h.ahead, by rw [hids]; exact h.aheadIn, h.passed,
    by rw [hids]; exact h.passedIn, by rw [hids]; exact h.updIn, fun id d' q' r' hr' => ?_⟩, ?_⟩
  · rw [observe_eq] at hr'
    obtain ⟨row, hrw, rfl⟩ := mem_updateRow.1 hr'
    clear hr'
    by_cases hid : row.id = r.dwIdx
    · rw [if_pos hid]
      exact (hrow row hrw hid).2
    · rw [if_neg hid]
      refine (h.at_ row hrw).keep (hrec _ rfl _) (fun d' q' r' hr' => ?_) (fun hp => hp) (fun ha => ha) fun _ => .rfl
      rw [he]
      refine h.events_other hr hr'.1 ?_
      rintro ⟨-, -, rfl⟩
      exact hid hr'.2.1.symm
  · rw [hids]
    exact h.recIn id d' q' r' ((hrec _ rfl _ _ _ _).1 hr')
  · rw [observe_eq]
    exact updateRow_le fun row hr he => (hrow row hr he).1

/-- **A step of the device queues** that is not a `QueueCmd` of `ProcessCmd`. -/
theorem Inv.adb (h : Inv s) {a : AdbStep Dev} {dwResult : Nat} (hs : step s (.adb a dwResult) = some s') :
    Inv s' ∧ ∀ row ∈ s.rows, ∃ row' ∈ s'.rows, row.Le row' := by
  simp only [step] at hs
  split at hs
  · cases hs
  · rename_i hown
    split at hs
    · cases hs
    · rename_i adb hadb
      cases hs
      have hexec := h.exec.step hadb
      obtain ⟨d, dwCmdIdx, cmdCode, pObserver, rfl, hcb, hev, hqd⟩ | ⟨d, q, r, e, hcb, hr, hc, hqd, hev⟩ |
        ⟨-, hcb, hqd, hev⟩ := h.exec.records hadb
      · -- another observer's record
        have ho : pObserver ≠ .cmdTableMod := by simpa [ownCall] using hown
        rw [hcb]
        have hrec : ∀ (s' : CmdTableMod Dev), s'.adb = adb →
            ∀ id d' q' r', RecOf s' id d' q' r' ↔ RecOf s id d' q' r' := by
          rintro s' rfl id d' q' r'
          rw [recOf_queued hqd]
          exact or_iff_left fun hn => ho hn.2.2
        refine ⟨⟨hexec, h.ids, fun row hr => ?_, h.ahead, h.aheadIn, h.passed, h.passedIn, h.updIn, ?_⟩,
          fun row hr => ⟨row, hr, .rfl⟩⟩
        · exact (h.at_ row hr).keep (hrec _ rfl _) (fun _ _ _ _ => by rw [hev]) (fun hp => hp) (fun ha => ha)
            fun _ => .rfl
        · exact fun id d' q' r' hr' => h.recIn id d' q' r' ((hrec _ rfl _ _ _ _).1 hr')
      · rw [hcb]
        by_cases ho : r.pObserver = .cmdTableMod
        · simp only [if_pos ho]
          exact h.observe dwResult hexec hr ho hc hqd hev
        · simp only [if_neg ho]
          refine ⟨⟨hexec, h.ids, fun row hrw => ?_, h.ahead, h.aheadIn, h.passed, h.passedIn, h.updIn, ?_⟩,
            fun row hr => ⟨row, hr, .rfl⟩⟩
          · refine (h.at_ row hrw).keep (recOf_congr hqd _) (fun d' q' r' hr' => ?_) (fun hp => hp) (fun ha => ha)
              fun _ => .rfl
            rw [hev]
            refine h.events_other hr hr'.1 ?_
            rintro ⟨-, -, rfl⟩
            exact ho hr'.2.2
          · exact fun id d' q' r' hr' => h.recIn id d' q' r' ((recOf_congr hqd _ _ _ _).1 hr')
      · rw [hcb]
        exact ⟨h.keep hexec hqd hev rfl rfl rfl rfl, fun row hr => ⟨row, hr, .rfl⟩⟩

theorem Inv.step {a : CmdTableStep Dev} (h : Inv s) (hs : step s a = some s') :
    Inv s' ∧ ∀ row ∈ s.rows, ∃ row' ∈ s'.rows, row.Le row' := by
  have hsame : ∀ row ∈ s.rows, ∃ row' ∈ s.rows, row.Le row' := fun row hr => ⟨row, hr, .rfl⟩
  cases a with
  | insert id result =>
    obtain ⟨hid, rfl⟩ := guard_some ((ite_not ..).trans hs)
    exact ⟨h.insert hid, fun row hr => ⟨row, List.mem_append_left _ hr, .rfl⟩⟩
  | adb a dwResult => exact h.adb hs
  | probe sqlResult =>
    simp only [CmdTableMod.step] at hs
    split at hs
    · obtain ⟨hp, rfl⟩ := guard_some hs
      exact ⟨h.probe ‹_› hp, hsame⟩
    · cases hs
  | fetch =>
    simp only [CmdTableMod.step] at hs
    split at hs
    · cases hs
      exact ⟨h.keep h.exec rfl rfl rfl rfl (by simp [*, MonPc.ahead]) (by simp [*, MonPc.upd]), hsame⟩
    · cases hs
      exact ⟨h.keep h.exec rfl rfl rfl rfl (by simp [*, MonPc.ahead]) (by simp [*, MonPc.upd]), hsame⟩
    · cases hs
  | getDevice pDevice =>
    simp only [CmdTableMod.step] at hs
    split at hs
    · split at hs
      · cases hs
      · rename_i adb hadb
        cases hs
        have hexec := h.exec.step hadb
        obtain ⟨-, rfl⟩ := guard_some hadb
        exact ⟨h.keep hexec rfl rfl rfl rfl (by simp [*, MonPc.ahead]) (by simp [*, MonPc.upd]), hsame⟩
    · cases hs
  | noDevice =>
    simp only [CmdTableMod.step] at hs
    split at hs
    · rename_i hmon
      cases hs
      exact ⟨h.fail (by rw [hmon]; rfl) (by rw [hmon]; rfl) (by decide) (.inl rfl), hsame⟩
    · cases hs
  | convertArgs cmdCode =>
    simp only [CmdTableMod.step] at hs
    split at hs
    · rename_i hmon
      cases hs
      split
      · exact ⟨h.keep h.exec rfl rfl rfl rfl (by simp [*, MonPc.ahead]) (by simp [*, MonPc.upd]), hsame⟩
      · exact ⟨h.fail (by rw [hmon]; rfl) (by rw [hmon]; rfl) (by decide) (.inl rfl), hsame⟩
    · cases hs
  | queueCmd =>
    simp only [CmdTableMod.step] at hs
    split at hs
    · rename_i hmon
      split at hs
      · cases hs
      · rename_i adb hadb
        cases hs
        exact ⟨h.queueCmd (by rw [hmon]; rfl) (by rw [hmon]; rfl) hadb, hsame⟩
    · cases hs
  | queueFails =>
    simp only [CmdTableMod.step] at hs
    split at hs
    · rename_i hmon
      cases hs
      exact ⟨h.fail (by rw [hmon]; rfl) (by rw [hmon]; rfl) (by decide) (.inr rfl), hsame⟩
    · cases hs
  | update =>
    simp only [CmdTableMod.step] at hs
    split at hs
    · rename_i hmon
      cases hs
      exact h.update hmon
    · cases hs
  | release =>
    simp only [CmdTableMod.step] at hs
    split at hs
    · cases hs
      exact ⟨h.keep h.exec rfl rfl rfl rfl (by simp [*, MonPc.ahead]) (by simp [*, MonPc.upd]), hsame⟩
    · split at hs
      · cases hs
      · rename_i adb hadb
        cases hs
        have hexec := h.exec.step hadb
        obtain ⟨-, rfl⟩ := guard_some hadb
        exact ⟨h.keep hexec rfl rfl rfl rfl (by simp [*, MonPc.ahead]) (by simp [*, MonPc.upd]), hsame⟩
    · cases hs

theorem inv_start : Inv (start : CmdTableMod Dev) where
  exec := AdbState.execInv_start
  ids := List.nodup_nil
  at_ := nofun
  ahead := List.nodup_nil
  aheadIn := nofun
  passed := List.nodup_nil
  passedIn := nofun
  updIn := nofun
  recIn := by
    rintro id d q r ⟨hr, -⟩
    cases hr

theorem inv_reach (h : (machine Dev).Reach s) : Inv s :=
  Machine.Reach.invariant (by rintro s rfl; exact inv_start) (fun _ _ _ hi hs => (hi.step hs).1) h

/-! ### Every run -/

/-- The record `r` is queued or executing. -/
def Live (s : CmdTableMod Dev) (d : Dev) (q : Queue) (r : CmdRec) : Prop :=
  r ∈ s.adb.cmdList d q ∨ ∃ w b, threadQueue w = q ∧ (s.adb.worker w).current d = some (r, b)

/-- A live record of row `id`. -/
def LiveOf (s : CmdTableMod Dev) (id : Nat) (d : Dev) (q : Queue) (r : CmdRec) : Prop :=
  Live s d q r ∧ r.dwIdx = id ∧ r.pObserver = .cmdTableMod

theorem Inv.live_queued (h : Inv s) {d : Dev} {q : Queue} {r : CmdRec} (hl : Live s d q r) : r ∈ s.adb.queued d q := by
  have hsv := h.exec.served d q
  rw [hsv.order]
  rcases hl with hl | ⟨w, b, hq, hw⟩
  · exact List.mem_append_right _ hl
  · exact List.mem_append_left _ (hsv.now w hq r b hw).1

theorem Inv.live_of_not_complete (h : Inv s) {d : Dev} {q : Queue} {r : CmdRec} (hr : r ∈ s.adb.queued d q)
    (hc : ¬ Complete (s.adb.events d q r.pRec)) : Live s d q r := by
  have hsv := h.exec.served d q
  have hr' := hr
  rw [hsv.order] at hr'
  rcases List.mem_append.1 hr' with hx | hx
  · obtain ⟨w, r', b, hq, hw, he⟩ := (hsv.done _ (hsv.pRec_lt hx)).resolve_left hc
    obtain rfl := hsv.pRec_inj (hsv.now w hq r' b hw).1 hx he
    exact .inr ⟨w, b, hq, hw⟩
  · exact .inl hx

/-- **The rows of `op_requests` only move forward, and each is queued once.**  No row is given to `QueueCmd` twice;
whatever happens, a row's `is_processing` grows, and when it is done it stays so with its result; and a row that is
taken and not done has exactly one record queued or executing. -/
theorem op_requests_forward (h : (machine Dev).Reach s) :
    (s.rows.map OpRequest.id).Nodup ∧ s.passed.Nodup ∧
    (∀ s', (machine Dev).After s s' → ∀ row ∈ s.rows, ∃ row' ∈ s'.rows, row.Le row') ∧
    (∀ row ∈ s.rows, 1 ≤ row.isProcessing → row.isDone = 0 → ∃ d q r, LiveOf s row.id d q r ∧
      ∀ d' q' r', LiveOf s row.id d' q' r' → d' = d ∧ q' = q ∧ r' = r) := by
  have hi := inv_reach h
  refine ⟨hi.ids, hi.passed, fun s' ha => ?_, fun row hr hp hd => ?_⟩
  · refine h.monotone (R := fun s s' => ∀ row ∈ s.rows, ∃ row' ∈ s'.rows, row.Le row')
      (fun s row hr => ⟨row, hr, .rfl⟩) ?_ ?_ ha
    · intro a b c hab hbc row hr
      obtain ⟨row', hr', hle⟩ := hab row hr
      obtain ⟨row'', hr'', hle'⟩ := hbc row' hr'
      exact ⟨row'', hr'', hle.trans hle'⟩
    · exact fun a l b ha hs => ((inv_reach ha).step hs).2
  · cases hi.at_ row hr with
    | untouched h1 => omega
    | failing _ _ h1 => omega
    | failed _ h2 => omega
    | recorded d q r h1 h2 _ _ h5 =>
      refine ⟨d, q, r, ⟨hi.live_of_not_complete h1.1 fun hc => ?_, h1.2⟩, fun d' q' r' hl => ?_⟩
      · rcases h5 with ⟨hes, -⟩ | ⟨hes, -⟩ | ⟨-, h1, -⟩
        · rw [hes] at hc
          exact not_complete_nil hc
        · rw [hes] at hc
          exact not_complete_executing hc
        · omega
      · exact h2 d' q' r' ⟨hi.live_queued hl.1, hl.2⟩

/-- A command that starts to execute before its row is marked as taken. -/
def racedRun : List (CmdTableStep Nat) := [.adb (.newDevice 0) 0, .adb (.updateState 0 false) 0, .insert 7 0,
  .probe [7], .fetch, .getDevice 0, .convertArgs (some .labelShow), .queueCmd, .adb (.request 0 1) 0,
  .adb (.post 0 1) 0, .adb (.loopTest 1) 0, .adb (.wait 1) 0, .adb (.test 1) 0, .adb (.begin 1) 0,
  .adb (.executeOne 1) 0, .update, .release]

theorem op_requests_forward_raced : ∃ s, (machine Nat).run start racedRun = some s ∧ s.rows = [⟨7, 2, 0, 0⟩] ∧
    s.passed.Nodup ∧ (∀ s', (machine Nat).After s s' → ∃ row' ∈ s'.rows, OpRequest.Le ⟨7, 2, 0, 0⟩ row') ∧
    ∃ d q r, LiveOf s 7 d q r := by
  obtain ⟨s, hs, hrows⟩ := Option.map_eq_some_iff.1 (show ((machine Nat).run start racedRun).map CmdTableMod.rows =
    some [⟨7, 2, 0, 0⟩] by decide)
  have hrow : (⟨7, 2, 0, 0⟩ : OpRequest) ∈ s.rows := by rw [hrows]; exact List.mem_cons_self
  obtain ⟨-, h2, h3, h4⟩ := op_requests_forward ((Machine.Reach.init rfl).run hs)
  obtain ⟨d, q, r, hl, -⟩ := h4 _ hrow (by decide) rfl
  exact ⟨s, hs, hrows, h2, fun s' ha => h3 s' ha _ hrow, d, q, r, hl⟩

end CmdTableMod

end DevMgr
