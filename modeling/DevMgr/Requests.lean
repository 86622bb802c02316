import DevMgr.AdbProgress
import DevMgr.CmdTableMod
/-!
# Requests — the answers to the rows of `op_requests`

`answers` are the results that `UpdateResult` and the update at the end of a failing `ProcessCmd` were called with, each
with the id of its row (`answerOf`).  A row is done once it is answered, which happens once and only while it is not
done, and its result stays the one of its answer.  As long as nothing more is queued, the threads of the device queues
answer every row that was queued.
-/
namespace DevMgr

open Machines

/-- Nothing is queued, and the queues are not cleaned up. -/
def CmdTableStep.calm {Dev : Type} : CmdTableStep Dev → Bool
  | .adb a _ => a.calm
  | .queueCmd => false
  | _ => true

/-- A step of a thread of the device queues, or of a `QueueCmd` under way. -/
def CmdTableStep.serving {Dev : Type} : CmdTableStep Dev → Bool
  | .adb a _ => a.serving
  | _ => false

structure Requests (Dev : Type) where
  table : CmdTableMod Dev
  answers : List (Nat × Nat)

namespace Requests

open CmdTableMod

variable {Dev : Type}

/-- What an observer's call answers. -/
def resultOf (dwResult : Nat) : CmdEvent → Option Nat
  | .onExecuting => none
  | .onExecuted => some dwResult
  | .onFailed dwReason => some dwReason
  | .onCancelled => some errorCancelled

variable [DecidableEq Dev]

def answerOf (t : CmdTableMod Dev) : CmdTableStep Dev → Option (Nat × Nat)
  | .adb a dwResult => match t.adb.callback a with
    | some (r, e) => if r.pObserver = .cmdTableMod then (resultOf dwResult e).map fun x => (r.dwIdx, x) else none
    | none => none
  | .update => match t.mon with
    | .updating dwIdx dwRet _ _ => if dwRet = errorSuccess then none else some (dwIdx, dwRet)
    | _ => none
  | _ => none

def step (s : Requests Dev) (a : CmdTableStep Dev) : Option (Requests Dev) :=
  (CmdTableMod.step s.table a).map fun t => { table := t, answers := s.answers ++ (answerOf s.table a).toList }

def machine (Dev : Type) [DecidableEq Dev] : Machine (Requests Dev) (CmdTableStep Dev) where
  init s := s = { table := .start, answers := [] }
  step := step

def Calm (_ : Requests Dev) (a : CmdTableStep Dev) : Prop := a.calm = true

instance (s : Requests Dev) (a : CmdTableStep Dev) : Decidable (Calm s a) := inferInstanceAs (Decidable (_ = _))

omit [DecidableEq Dev] in
/-- **Every row that is taken or queued is done.** -/
def Answered (s : Requests Dev) : Prop :=
  ∀ row ∈ s.table.rows, (1 ≤ row.isProcessing ∨ ∃ d q r, RecOf s.table row.id d q r) → row.isDone = 1

end Requests

/-! ## The rows of one step -/

namespace CmdTableMod

open Requests

variable {Dev : Type} [DecidableEq Dev] {s s' : CmdTableMod Dev} {a : CmdTableStep Dev}

/-- What a step does to the columns `is_done` and `result`: nothing; it inserts a row; or it answers one that is not
done. -/
inductive Answers (rows rows' : List OpRequest) : Option (Nat × Nat) → Prop
  | same : rows' = rows → Answers rows rows' none
  | inserted (id result : Nat) : id ∉ rows.map OpRequest.id → rows' = rows ++ [⟨id, 0, 0, result⟩] →
      Answers rows rows' none
  | marked (id : Nat) (set : OpRequest → OpRequest) : rows' = updateRow rows id set →
      (∀ r, (set r).id = r.id ∧ (set r).isDone = r.isDone ∧ (set r).result = r.result) → Answers rows rows' none
  | answered (id x : Nat) (set : OpRequest → OpRequest) (row : OpRequest) : row ∈ rows → row.id = id → row.isDone = 0 →
      rows' = updateRow rows id set → (∀ r, (set r).id = r.id ∧ (set r).isDone = 1 ∧ (set r).result = x) →
      Answers rows rows' (some (id, x))

/-- The row of a record whose observer is called is not done. -/
theorem Inv.not_done (h : Inv s) {d : Dev} {q : Queue} {r : CmdRec} {e : CmdEvent} (hr : r ∈ s.adb.queued d q)
    (ho : r.pObserver = .cmdTableMod) (hc : AdbState.Called (s.adb.events d q r.pRec) e) :
    ∃ row ∈ s.rows, row.id = r.dwIdx ∧ row.isDone = 0 := by
  have hrec : RecOf s r.dwIdx d q r := ⟨hr, rfl, ho⟩
  obtain ⟨row, hrow, hid⟩ := List.mem_map.1 (h.recIn _ d q r hrec)
  refine ⟨row, hrow, hid, ?_⟩
  rw [← hid] at hrec
  cases h.at_ row hrow with
  | untouched _ hd _ _ _ => exact hd
  | failing _ _ _ hd _ _ _ => exact hd
  | failed _ _ hno _ _ => exact absurd hrec (hno d q r)
  | recorded d' q' r' _ hone _ _ hcol =>
    obtain ⟨rfl, rfl, rfl⟩ := hone d q r hrec
    rcases hcol with ⟨-, hd, -⟩ | ⟨-, hd, -⟩ | ⟨hcomplete, -, -⟩
    · exact hd
    · exact hd
    · rcases hc with ⟨hes, -⟩ | ⟨hes, -⟩
      · rw [hes] at hcomplete
        exact absurd hcomplete not_complete_nil
      · rw [hes] at hcomplete
        exact absurd hcomplete not_complete_executing

theorem Inv.answers_adb (h : Inv s) {b : AdbStep Dev} {dwResult : Nat}
    (hs : CmdTableMod.step s (.adb b dwResult) = some s') :
    Answers s.rows s'.rows (answerOf s (.adb b dwResult)) := by
  simp only [CmdTableMod.step] at hs
  split at hs
  · cases hs
  · split at hs
    · cases hs
    · rename_i adb hadb
      cases hs
      unfold answerOf
      obtain ⟨d, dwCmdIdx, cmdCode, pObserver, -, hcb, -, -⟩ | ⟨d, q, r, e, hcb, hr, hc, -, -⟩ | ⟨-, hcb, -, -⟩ :=
        h.exec.records hadb
      · simp only [hcb]
        exact .same rfl
      · simp only [hcb]
        by_cases ho : r.pObserver = .cmdTableMod
        · obtain ⟨row, hrow, hid, hd⟩ := h.not_done hr ho hc
          simp only [if_pos ho]
          rw [observe_eq]
          cases e with
          | onExecuting => exact .marked r.dwIdx _ rfl fun _ => ⟨rfl, rfl, rfl⟩
          | onExecuted | onFailed | onCancelled =>
            exact .answered r.dwIdx _ _ row hrow hid hd rfl fun _ => ⟨rfl, rfl, rfl⟩
        · simp only [if_neg ho]
          exact .same rfl
      · simp only [hcb]
        exact .same rfl

theorem Inv.answers_update (h : Inv s) (hs : CmdTableMod.step s .update = some s') :
    Answers s.rows s'.rows (answerOf s .update) := by
  simp only [CmdTableMod.step] at hs
  split at hs
  · rename_i dwIdx dwRet pDevice rows hmon
    cases hs
    have hupd : s.mon.upd = some (dwIdx, dwRet) := by rw [hmon]; rfl
    unfold answerOf
    simp only [hmon]
    rw [markTaken_eq]
    by_cases hret : dwRet = errorSuccess
    · rw [if_pos hret]
      refine .marked dwIdx _ rfl fun r => ?_
      unfold taken
      rw [if_pos hret]
      split <;> exact ⟨rfl, rfl, rfl⟩
    · rw [if_neg hret]
      obtain ⟨row, hrow, hid⟩ := List.mem_map.1 (h.updIn _ _ hupd)
      refine .answered dwIdx dwRet _ row hrow hid ?_ rfl fun r => ?_
      · rw [← hid] at hupd
        cases h.at_ row hrow with
        | untouched _ hd _ _ _ => exact hd
        | failing _ _ _ hd _ _ _ => exact hd
        | failed _ _ _ hno _ => exact absurd hupd (hno dwRet)
        | recorded _ _ _ _ _ hsucc _ _ => exact absurd (hsucc dwRet hupd) hret
      · unfold taken
        rw [if_neg hret]
        exact ⟨rfl, rfl, rfl⟩
  · cases hs

theorem Inv.answers_step (h : Inv s) (hs : CmdTableMod.step s a = some s') : Answers s.rows s'.rows (answerOf s a) := by
  cases a with
  | insert id result =>
    obtain ⟨hid, rfl⟩ := guard_some ((ite_not ..).trans hs)
    exact .inserted id result hid rfl
  | adb b dwResult => exact h.answers_adb hs
  | update => exact h.answers_update hs
  | probe | fetch | getDevice | noDevice | convertArgs | queueCmd | queueFails | release =>
    refine .same ?_
    simp only [CmdTableMod.step] at hs
    repeat' split at hs
    all_goals cases hs <;> rfl

/-- What a step does to the device queues. -/
theorem adb_step (hs : step s a = some s') : s'.adb = s.adb ∧ a.serving = false ∨
    ∃ b, AdbState.step false s.adb b = some s'.adb ∧ (a.calm = true → b.calm = true) ∧ b.serving = a.serving := by
  cases a with
  | adb b dwResult =>
    simp only [step] at hs
    split at hs
    · cases hs
    · split at hs
      · cases hs
      · cases hs
        exact .inr ⟨b, ‹_›, id, rfl⟩
  | getDevice pDevice =>
    simp only [step] at hs
    split at hs
    · split at hs <;> cases hs
      exact .inr ⟨.addRef pDevice, ‹_›, fun _ => rfl, rfl⟩
    · cases hs
  | queueCmd =>
    simp only [step] at hs
    split at hs
    · split at hs <;> cases hs
      exact .inr ⟨.queueCmd _ _ _ _, ‹_›, fun hc => (by cases hc), rfl⟩
    · cases hs
  | release =>
    simp only [step] at hs
    split at hs
    · cases hs
      exact .inl ⟨rfl, rfl⟩
    · split at hs <;> cases hs
      exact .inr ⟨.release _, ‹_›, fun _ => rfl, rfl⟩
    · cases hs
  | insert | probe | fetch | noDevice | convertArgs | queueFails | update =>
    refine .inl ⟨?_, rfl⟩
    simp only [step] at hs
    repeat' split at hs
    all_goals cases hs <;> rfl

theorem adb_reach (h : (machine Dev).Reach s) : (AdbState.machine Dev false).Reach s.adb := by
  induction h with
  | init hs =>
    cases hs
    exact .init rfl
  | step _ _ hs ih =>
    rcases adb_step hs with ⟨heq, -⟩ | ⟨b, hb, -, -⟩
    · rw [heq]
      exact ih
    · exact ih.step hb

/-- **When the device queues are quiet** all rows that were taken or queued are done. -/
theorem Inv.done_of_quiet (h : Inv s) (hq : s.adb.Quiet) {row : OpRequest} (hr : row ∈ s.rows)
    (hrow : 1 ≤ row.isProcessing ∨ ∃ d q r, RecOf s row.id d q r) : row.isDone = 1 := by
  cases h.at_ row hr with
  | untouched hp _ _ hno _ | failing _ _ hp _ hno _ _ =>
    rcases hrow with hrow | ⟨d, q, r, hrec⟩
    · omega
    · exact absurd hrec (hno d q r)
  | failed _ hd _ _ _ => exact hd
  | recorded d q r hrec _ _ _ hcol =>
    have hcomplete := hq.done h.exec d q r hrec.1
    rcases hcol with ⟨hes, -⟩ | ⟨hes, -⟩ | ⟨-, hd, -⟩
    · rw [hes] at hcomplete
      exact absurd hcomplete not_complete_nil
    · rw [hes] at hcomplete
      exact absurd hcomplete not_complete_executing
    · exact hd

end CmdTableMod

/-! ## The answers -/

namespace Requests

open CmdTableMod

variable {Dev : Type} [DecidableEq Dev] {s s' : Requests Dev} {a : CmdTableStep Dev} {ds : Finset Dev}

structure Inv (s : Requests Dev) : Prop where
  table : s.table.Inv
  once : (s.answers.map Prod.fst).Nodup
  known : ∀ id ∈ s.answers.map Prod.fst, id ∈ s.table.rows.map OpRequest.id
  done : ∀ row ∈ s.table.rows, (row.isDone = 1 ∧ (row.id, row.result) ∈ s.answers) ∨
    (row.isDone = 0 ∧ row.id ∉ s.answers.map Prod.fst)

/-- **An answer is the only one of its row.** -/
theorem Inv.answers (h : Inv s) {t : CmdTableMod Dev} (ht : t.Inv) {o : Option (Nat × Nat)}
    (ha : Answers s.table.rows t.rows o) : Inv { table := t, answers := s.answers ++ o.toList } := by
  cases ha with
  | same hrows =>
    rw [Option.toList_none, List.append_nil]
    exact ⟨ht, h.once, by rw [hrows]; exact h.known, by rw [hrows]; exact h.done⟩
  | inserted id result hid hrows =>
    rw [Option.toList_none, List.append_nil]
    refine ⟨ht, h.once, fun i hi => ?_, fun row hr => ?_⟩
    · rw [hrows, List.map_append]
      exact List.mem_append_left _ (h.known i hi)
    · rw [hrows] at hr
      rcases List.mem_append.1 hr with hr | hr
      · exact h.done row hr
      · rw [List.mem_singleton.1 hr]
        exact .inr ⟨rfl, fun hn => hid (h.known id hn)⟩
  | marked id set hrows hset =>
    rw [Option.toList_none, List.append_nil]
    refine ⟨ht, h.once, ?_, fun row' hr' => ?_⟩
    · rw [hrows, ids_updateRow fun r => (hset r).1]
      exact h.known
    · rw [hrows] at hr'
      obtain ⟨row, hr, rfl⟩ := mem_updateRow.1 hr'
      split
      · rw [(hset row).1, (hset row).2.1, (hset row).2.2]
        exact h.done row hr
      · exact h.done row hr
  | answered id x set row₀ hr₀ hid₀ hd₀ hrows hset =>
    have hfresh : id ∉ s.answers.map Prod.fst := by
      rcases h.done row₀ hr₀ with ⟨hd, -⟩ | ⟨-, hn⟩
      · exact absurd (hd₀.symm.trans hd) Nat.zero_ne_one
      · rwa [hid₀] at hn
    have hids : t.rows.map OpRequest.id = s.table.rows.map OpRequest.id := by
      rw [hrows]
      exact ids_updateRow fun r => (hset r).1
    refine ⟨ht, ?_, fun i hi => ?_, fun row' hr' => ?_⟩
    · rw [List.map_append]
      exact h.once.append (List.nodup_singleton _) (List.disjoint_singleton.2 hfresh)
    · rw [hids]
      rw [List.map_append] at hi
      rcases List.mem_append.1 hi with hi | hi
      · exact h.known i hi
      · rw [List.mem_singleton.1 hi]
        exact List.mem_map.2 ⟨row₀, hr₀, hid₀⟩
    · rw [hrows] at hr'
      obtain ⟨row, hr, rfl⟩ := mem_updateRow.1 hr'
      by_cases hid : row.id = id
      · rw [if_pos hid, (hset row).1, (hset row).2.1, (hset row).2.2, hid]
        exact .inl ⟨rfl, List.mem_append_right _ List.mem_cons_self⟩
      · rw [if_neg hid]
        refine (h.done row hr).imp (fun hd => ⟨hd.1, List.mem_append_left _ hd.2⟩) fun hd => ⟨hd.1, fun hn => ?_⟩
        rw [List.map_append] at hn
        exact (List.mem_append.1 hn).elim hd.2 fun hn => hid (List.mem_singleton.1 hn)

theorem Inv.step (h : Inv s) (hs : Requests.step s a = some s') : Inv s' := by
  obtain ⟨t, ht, rfl⟩ := Option.map_eq_some_iff.1 hs
  exact h.answers (h.table.step ht).1 (h.table.answers_step ht)

theorem table_reach (h : (machine Dev).Reach s) : (CmdTableMod.machine Dev).Reach s.table := by
  induction h with
  | init hs =>
    cases hs
    exact .init rfl
  | step _ _ hs ih =>
    obtain ⟨t, ht, rfl⟩ := Option.map_eq_some_iff.1 hs
    exact ih.step ht

theorem inv_reach (h : (machine Dev).Reach s) : Inv s := by
  refine h.invariant ?_ fun _ _ _ hi hs => hi.step hs
  rintro _ rfl
  exact ⟨inv_start, List.nodup_nil, fun _ hid => (by cases hid), fun _ hr => (by cases hr)⟩

/-! ### The end -/

theorem lift_step {b : AdbStep Dev} {adb : AdbState Dev} (hb : b.serving = true)
    (hs : AdbState.step false s.table.adb b = some adb) :
    ∃ a s', a.serving = true ∧ Calm s a ∧ Requests.step s a = some s' := by
  have hown : ownCall b = false := by
    cases b <;> first | rfl | cases hb
  have hcalm : b.calm = true := by
    cases b <;> first | rfl | cases hb
  obtain ⟨t, ht⟩ : ∃ t, CmdTableMod.step s.table (.adb b 0) = some t := by
    simp only [CmdTableMod.step, hown, hs]
    exact ⟨_, rfl⟩
  exact ⟨.adb b 0, _, hb, hcalm, Option.map_eq_some_iff.2 ⟨t, ht, rfl⟩⟩

/-- With the device queues before `Cleanup`. -/
def Open (ds : Finset Dev) (s : Requests Dev) : Prop := Inv s ∧ s.table.adb.Working ds

theorem descends (ds : Finset Dev) : Machine.Descends (machine Dev) Calm CmdTableStep.serving (Open ds)
    fun s => AdbState.rank ds s.table.adb where
  keeps s a s' h hok hs := by
    refine ⟨h.1.step hs, ?_⟩
    obtain ⟨t, ht, rfl⟩ := Option.map_eq_some_iff.1 hs
    rcases adb_step ht with ⟨heq, -⟩ | ⟨b, hb, hcalm, -⟩
    · rw [heq]
      exact h.2
    · exact h.2.step (hcalm hok) hb
  rank_le s a s' h hok hs := by
    obtain ⟨t, ht, rfl⟩ := Option.map_eq_some_iff.1 hs
    rcases adb_step ht with ⟨heq, -⟩ | ⟨b, hb, hcalm, -⟩
    · rw [heq]
    · exact h.2.rank_le (hcalm hok) hb
  rank_lt s a s' h hok hp hs := by
    obtain ⟨t, ht, rfl⟩ := Option.map_eq_some_iff.1 hs
    rcases adb_step ht with ⟨-, hno⟩ | ⟨b, hb, -, hserving⟩
    · rw [hno] at hp
      cases hp
    · exact h.2.rank_lt (hserving.trans hp) hb

theorem offers (ds : Finset Dev) : Machine.Offers (machine Dev) Calm CmdTableStep.serving (Open ds)
    fun s => s.table.adb.Quiet := by
  intro s h hn
  obtain ⟨b, adb, hb, -, hs⟩ := AdbState.offers ds s.table.adb h.2 hn
  exact lift_step hb hs

theorem Inv.answered (h : Inv s) (hq : s.table.adb.Quiet) : Answered s := fun _ hr hrow =>
  h.table.done_of_quiet hq hr hrow

/-- **Every request is answered once, with the result of its own command**: in every run a row of `op_requests` is done
exactly when it was answered, no row is answered twice, and the row's result is its answer.  And from any state before
the queues are cleaned up, as long as nothing more is queued, the threads take no more than some number of steps; while
a row that is taken or queued is not done one of them can take one; and they can always be run until all those rows are
done. -/
theorem requests_answered (h : (machine Dev).Reach s) :
    (s.answers.map Prod.fst).Nodup ∧
    (∀ row ∈ s.table.rows, (row.isDone = 1 ∧ (row.id, row.result) ∈ s.answers) ∨
      (row.isDone = 0 ∧ row.id ∉ s.answers.map Prod.fst)) ∧
    (s.table.adb.bExecQuit = false → ∃ n, ∀ as s', (machine Dev).runWhen Calm s as = some s' →
      as.countP CmdTableStep.serving ≤ n ∧
      (¬ Answered s' → ∃ a t, a.serving = true ∧ step s' a = some t) ∧
      ∃ bs t, (machine Dev).runWhen Calm s' bs = some t ∧ (∀ a ∈ bs, a.serving = true) ∧ Answered t) := by
  have hi := inv_reach h
  refine ⟨hi.once, hi.done, fun hq => ?_⟩
  obtain ⟨ds, hw⟩ := AdbState.working_reach (adb_reach (table_reach h)) hq
  refine ⟨AdbState.rank ds s.table.adb, fun as s' hr => ?_⟩
  have hopen : Open ds s' := (descends ds).runWhen ⟨hi, hw⟩ hr
  refine ⟨?_, fun hn => ?_, ?_⟩
  · have hle := (descends ds).countP_le ⟨hi, hw⟩ hr
    omega
  · obtain ⟨a, t, hp, -, ht⟩ := offers ds s' hopen fun hquiet => hn (hopen.1.answered hquiet)
    exact ⟨a, t, hp, ht⟩
  · obtain ⟨bs, t, hbs, hquiet, hall⟩ := (descends ds).exists_runWhen (offers ds) _ (Nat.le_refl _) hopen
    exact ⟨bs, t, hbs, hall, ((descends ds).runWhen hopen hbs).1.answered hquiet⟩

/-- Two requests, of which the second is for a device that is not there, while the first is executed. -/
def twoRequests : List (CmdTableStep Nat) := [.adb (.newDevice 0) 0, .adb (.updateState 0 false) 0, .insert 7 0,
  .insert 8 0, .probe [7, 8], .fetch, .getDevice 0, .convertArgs (some .labelShow), .queueCmd, .adb (.request 0 1) 0,
  .adb (.post 0 1) 0, .adb (.loopTest 1) 0, .adb (.wait 1) 0, .adb (.test 1) 0, .adb (.begin 1) 0, .update, .release,
  .fetch, .noDevice, .adb (.executeOne 1) 0, .update]

theorem requests_answered_two : ∃ s n, (machine Nat).run { table := .start, answers := [] } twoRequests = some s ∧
    s.table.rows = [⟨7, 2, 0, 0⟩, ⟨8, 1, 1, errorNotFound⟩] ∧ (8, errorNotFound) ∈ s.answers ∧
    ∀ as s', (machine Nat).runWhen Calm s as = some s' → as.countP CmdTableStep.serving ≤ n ∧
      ∃ bs t, (machine Nat).runWhen Calm s' bs = some t ∧ Answered t := by
  obtain ⟨s, hs, hv⟩ := Option.map_eq_some_iff.1 (show
    ((machine Nat).run { table := .start, answers := [] } twoRequests).map
      (fun s => (s.table.rows, s.table.adb.bExecQuit)) =
        some ([⟨7, 2, 0, 0⟩, ⟨8, 1, 1, errorNotFound⟩], false) by decide)
  obtain ⟨hrows, hq⟩ := Prod.mk.inj hv
  obtain ⟨-, hdone, hend⟩ := requests_answered ((Machine.Reach.init rfl).run hs)
  obtain ⟨n, hn⟩ := hend hq
  have hmem : (⟨8, 1, 1, errorNotFound⟩ : OpRequest) ∈ s.table.rows := by simp [hrows]
  refine ⟨s, n, hs, hrows, (hdone _ hmem).elim And.right fun hno => absurd hno.1 Nat.one_ne_zero, fun as s' hr => ?_⟩
  obtain ⟨h1, -, bs, t, hbs, -, ht⟩ := hn as s' hr
  exact ⟨h1, bs, t, hbs, ht⟩

end Requests

end DevMgr
