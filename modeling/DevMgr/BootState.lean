import DevMgr.GetProp
import DevMgr.SmartDeviceAdb
/-!
# BootState — whether a booting device is ready

`SmartDeviceAdb::UpdateState` asks a device that is booting for `ro.bootmode` and then for `dev.bootcomplete`, with one
command object and one buffer on the stack, and looks at the first byte of the buffer after each.
-/
namespace DevMgr.SmartDeviceAdb

open MiscUtils AdbCmdGetProp

/-- `buf` of `UpdateState`. -/
abbrev StateBuf := Fin 200 → BYTE

/-- The buffer after `GetResult`. -/
def getState (cmd : AdbCmd) (buf : StateBuf) : StateBuf :=
  match cmd.getResult 200 with
  | none => buf
  | some bs => fun i => (bs[i.val]?).getD (buf i)

structure StateUpdate where
  deviceState : DevState
  bFinished : Bool
  bChanged : Bool
  deriving DecidableEq, Repr

def updateState (deviceState : DevState) (buf : StateBuf) (bootmode bootcomplete : PropQuery) :
    Except CmdFault StateUpdate :=
  if deviceState ≠ .booting then .ok ⟨deviceState, true, false⟩
  else match query newCmd bootmode with
    | .error e => .error e
    | .ok cmd =>
      let buf := getState cmd buf
      if buf 0 = 99 then .ok ⟨.charger, true, true⟩
      else match query cmd bootcomplete with
        | .error e => .error e
        | .ok cmd =>
          let buf := getState cmd buf
          if buf 0 = 49 then .ok ⟨.main, true, true⟩
          else .ok ⟨.booting, false, false⟩

/-! ## What the queries say -/

/-- The first byte of a value, when it is not longer than the 199 bytes that the buffer has room for. -/
def firstOf (q : PropQuery) : Option BYTE := (q.value.filter (·.length < 200)).bind List.head?

/-- The decision by the answers to the two queries. -/
def decided (bootmode bootcomplete : PropQuery) : StateUpdate :=
  if firstOf bootmode = some 99 then ⟨.charger, true, true⟩
  else if firstOf bootcomplete = some 49 then ⟨.main, true, true⟩
  else ⟨.booting, false, false⟩

/-- A query that leaves the buffer as it is: the child cannot be created, or there is neither an error in its text nor a
value that the buffer has room for. -/
def Keeps (q : PropQuery) (qs : List PropQuery) : Prop :=
  ¬ q.Created ∨ ∃ s ∈ heard (q :: qs), ¬ ascii "error" <:+: s ∧ 13 ∉ s.take 200

instance (q : PropQuery) (qs : List PropQuery) : Decidable (Keeps q qs) := inferInstanceAs (Decidable (_ ∨ _))

/-- The first byte of the buffer after the first query. -/
def firstAfter (first : BYTE) (bootmode : PropQuery) : BYTE :=
  if Keeps bootmode [] then first else (firstOf bootmode).getD 0

/-- The queries are over without a fault, and where one of them leaves the buffer as it is, the byte that is there does
not decide. -/
structure Settles (first : BYTE) (bootmode bootcomplete : PropQuery) : Prop where
  mode : Hears bootmode []
  modeByte : Keeps bootmode [] → first ≠ 99
  complete : Hears bootcomplete [bootmode]
  completeByte : Keeps bootcomplete [bootmode] → firstAfter first bootmode ≠ 49

/-! ## The buffer -/

section
variable {cmd : AdbCmd} {q : PropQuery} {qs : List PropQuery} {buf : StateBuf}

theorem getState_getState (cmd : AdbCmd) (buf : StateBuf) : getState cmd (getState cmd buf) = getState cmd buf := by
  funext i
  unfold getState
  cases cmd.getResult 200 with
  | none => rfl
  | some bs => cases hi : bs[i.val]? <;> simp [hi]

/-- A query that keeps the buffer has no answer. -/
theorem firstOf_of_keeps (h : Keeps q qs) : firstOf q = none := by
  unfold firstOf PropQuery.value
  by_cases hv : q.Created ∧ ¬ ascii "error" <:+: q.text ∧ 13 ∈ q.text
  · obtain ⟨hc, -, hcr⟩ := id hv
    have hne : q.child.reads ≠ [] := by
      intro hn
      rw [PropQuery.text_nil hn] at hcr
      exact absurd hcr List.not_mem_nil
    obtain ⟨s, hs, -, htake⟩ := h.resolve_left (not_not_intro hc)
    replace hs : heard (q :: qs) = some s := hs
    rw [heard_of_text qs hc hne] at hs
    cases hs
    have hlong : ¬ (q.text.takeWhile (· ≠ 13)).length < 200 := fun hlt => htake (mem_take_iff.2 ⟨hcr, hlt⟩)
    rw [if_pos hv, Option.filter_some, if_neg (by simpa using hlong)]
    rfl
  · rw [if_neg hv]
    rfl

theorem getState_keeps (ha : IsAfter cmd (q :: qs)) (hc : q.Created) (h : Keeps q qs) : getState cmd buf = buf := by
  obtain ⟨s, hs, herr, htake⟩ := h.resolve_left (not_not_intro hc)
  replace hs : heard (q :: qs) = some s := hs
  obtain ⟨hlong, hshort⟩ := ha.getResult 200
  have hheld : held (q :: qs) = answer s q.child.reads.flatten.length := by
    rw [held, if_neg (not_not_intro hc), hs]
  unfold answer at hheld
  rw [if_neg herr] at hheld
  unfold getState
  by_cases hcr : 13 ∈ s
  · rw [if_pos hcr] at hheld
    have hlt : ¬ (s.takeWhile (· ≠ 13)).length < 200 := fun hlt => htake (mem_take_iff.2 ⟨hcr, hlt⟩)
    rw [hlong (by rw [hheld]; omega)]
  · rw [if_neg hcr] at hheld
    obtain ⟨bs, hbs, hlen, -⟩ := hshort (by rw [hheld]; exact Nat.zero_le _)
    rw [hheld] at hlen
    rw [hbs, List.eq_nil_of_length_eq_zero hlen]
    rfl

/-- **A query that does not keep the buffer** leaves the first byte of its value, or a zero. -/
theorem getState_zero (ha : IsAfter cmd (q :: qs)) (hq : Hears q qs) (h : ¬ Keeps q qs) :
    getState cmd buf 0 = (firstOf q).getD 0 := by
  have hc : q.Created := by
    by_contra hc
    exact h (.inl hc)
  obtain ⟨s, hs, -⟩ := hq hc
  have hheard : heard (q :: qs) = some s := hs
  have hsome : ¬ (¬ ascii "error" <:+: s ∧ 13 ∉ s.take 200) := fun hn => h (.inr ⟨s, hs, hn⟩)
  have hheld : held (q :: qs) = answer s q.child.reads.flatten.length := by
    rw [held, if_neg (not_not_intro hc), hheard]
  obtain ⟨-, hshort⟩ := ha.getResult 200
  -- the result is a string that the buffer has room for
  have hread : (held (q :: qs)).1 ≠ 0 → (held (q :: qs)).1 ≤ 200 →
      getState cmd buf 0 = (held (q :: qs)).2.head?.getD 0 := by
    intro h0 hle
    obtain ⟨bs, hbs, -, hstr⟩ := hshort hle
    obtain ⟨t, rfl⟩ := hstr h0
    unfold getState
    rw [hbs]
    cases (held (q :: qs)).2 <;> rfl
  by_cases herr : ascii "error" <:+: s
  · unfold answer at hheld
    rw [if_pos herr] at hheld
    rw [hheld] at hread
    have hnone : q.value = none := by
      apply if_neg
      rintro ⟨-, hfree, hcr⟩
      by_cases hne : q.child.reads = []
      · rw [PropQuery.text_nil hne] at hcr
        exact absurd hcr List.not_mem_nil
      · rw [heard_of_text qs hc hne] at hheard
        cases hheard
        exact hfree herr
    rw [hread (by decide) (by decide), firstOf, hnone]
    rfl
  · have htake : 13 ∈ s.take 200 := by
      by_contra htake
      exact hsome ⟨herr, htake⟩
    obtain ⟨hcr, hlt⟩ := mem_take_iff.1 htake
    by_cases hne : q.child.reads = []
    · -- nothing was written: the result is the zero in front of what is left of another value
      unfold answer at hheld
      rw [if_neg herr, if_pos hcr, hne, List.flatten_nil, List.length_nil, List.take_zero] at hheld
      rw [hheld] at hread
      rw [hread (Nat.succ_ne_zero _) (Nat.succ_le_of_lt hlt), firstOf, PropQuery.value, PropQuery.text_nil hne, if_neg]
      · rfl
      · exact fun h => absurd h.2.2 List.not_mem_nil
    · have hheld' := (held_of_text qs hc hne).2
      rw [heard_of_text qs hc hne] at hheard
      cases hheard
      rw [if_neg herr, if_pos hcr] at hheld'
      rw [hheld'] at hread
      rw [hread (Nat.succ_ne_zero _) (Nat.succ_le_of_lt hlt), firstOf, PropQuery.value, if_pos ⟨hc, herr, hcr⟩,
        Option.filter_some, if_pos (by simpa using hlt), Option.bind_some]

/-- The byte that decides after the first query. -/
theorem getState_first (ha : IsAfter cmd [q]) (hq : Hears q []) : getState cmd buf 0 = firstAfter (buf 0) q := by
  unfold firstAfter
  by_cases hk : Keeps q []
  · rw [if_pos hk]
    by_cases hc : q.Created
    · rw [getState_keeps ha hc hk]
    · obtain ⟨bs, hbs, hlen, -⟩ := (ha.getResult 200).2 (by rw [held, if_pos hc]; exact Nat.zero_le _)
      rw [held, if_pos hc] at hlen
      unfold getState
      rw [hbs, List.eq_nil_of_length_eq_zero hlen]
      rfl
  · rw [if_neg hk, getState_zero ha hq hk]

end

/-- A query with a value is heard. -/
theorem hears_of_firstOf {q : PropQuery} (qs : List PropQuery) {c : BYTE} (h : firstOf q = some c) : Hears q qs := by
  unfold firstOf PropQuery.value at h
  split at h
  · rename_i hv
    refine (held_of_text qs hv.1 fun hn => ?_).1
    rw [PropQuery.text_nil hn] at hv
    exact absurd hv.2.2 List.not_mem_nil
  · cases h

theorem eq_some_of_getD {o : Option BYTE} {c : BYTE} (hc : c ≠ 0) (h : o.getD 0 = c) : o = some c := by
  cases o with
  | none => exact absurd h.symm hc
  | some x => exact congrArg some h

/-- The second query, when the byte that the first one leaves is no `c`. -/
theorem second_iff {cmd : AdbCmd} {buf : StateBuf} {bootmode bootcomplete : PropQuery} (hmode : Hears bootmode [])
    (ha : IsAfter cmd [bootmode]) (hbyte : firstAfter (buf 0) bootmode ≠ 99) :
    (match query cmd bootcomplete with
      | .error e => .error e
      | .ok cmd' => if getState cmd' (getState cmd buf) 0 = 49 then .ok ⟨.main, true, true⟩
        else .ok ⟨.booting, false, false⟩ : Except CmdFault StateUpdate) =
      .ok (if firstOf bootcomplete = some 49 then ⟨.main, true, true⟩ else ⟨.booting, false, false⟩) ↔
    Settles (buf 0) bootmode bootcomplete := by
  have hmodeByte : Keeps bootmode [] → buf 0 ≠ 99 := by
    intro hk
    rwa [firstAfter, if_pos hk] at hbyte
  by_cases hcomp : Hears bootcomplete [bootmode]
  · obtain ⟨cmd', hcmd', ha'⟩ := ha.query hcomp
    rw [hcmd']
    dsimp only
    by_cases hk : Keeps bootcomplete [bootmode]
    · have hsame : getState cmd' (getState cmd buf) 0 = firstAfter (buf 0) bootmode := by
        rw [← getState_first ha hmode]
        by_cases hc : bootcomplete.Created
        · rw [getState_keeps ha' hc hk]
        · -- the result of the first query is copied once more
          rw [query_keep cmd hc] at hcmd'
          cases hcmd'
          rw [getState_getState]
      rw [hsame, firstOf_of_keeps hk, if_neg (fun h : none = some (49 : BYTE) => by cases h)]
      by_cases h49 : firstAfter (buf 0) bootmode = 49
      · rw [if_pos h49]
        exact iff_of_false (fun h => by cases h) fun h => h.completeByte hk h49
      · rw [if_neg h49]
        exact iff_of_true rfl ⟨hmode, hmodeByte, hcomp, fun _ => h49⟩
    · rw [getState_zero ha' hcomp hk]
      refine iff_of_true ?_ ⟨hmode, hmodeByte, hcomp, fun h => absurd h hk⟩
      by_cases h49 : firstOf bootcomplete = some 49
      · rw [if_pos h49, h49, Option.getD_some, if_pos rfl]
      · rw [if_neg h49, if_neg fun h => h49 (eq_some_of_getD (by decide) h)]
  · obtain ⟨e, he⟩ := ha.query_fault hcomp
    rw [he]
    exact iff_of_false (fun h => by cases h) fun h => hcomp h.complete

/-- **A booting device is moved by its answers exactly when the first one says `c`, or nothing that another query or the
stack has left decides.** -/
theorem updateState_iff (buf : StateBuf) (bootmode bootcomplete : PropQuery) :
    updateState .booting buf bootmode bootcomplete = .ok (decided bootmode bootcomplete) ↔
      firstOf bootmode = some 99 ∨ Settles (buf 0) bootmode bootcomplete := by
  unfold updateState decided
  rw [if_neg (not_not_intro rfl)]
  by_cases hmode : Hears bootmode []
  · obtain ⟨cmd, hcmd, ha⟩ := isAfter_new.query hmode
    rw [hcmd]
    dsimp only
    rw [getState_first ha hmode]
    by_cases hfirst : firstOf bootmode = some 99
    · have hkeep : ¬ Keeps bootmode [] := by
        intro hk
        rw [firstOf_of_keeps hk] at hfirst
        cases hfirst
      have hbyte : firstAfter (buf 0) bootmode = 99 := by rw [firstAfter, if_neg hkeep, hfirst, Option.getD_some]
      rw [if_pos hbyte, if_pos hfirst]
      exact iff_of_true rfl (.inl hfirst)
    · rw [if_neg hfirst, or_iff_right hfirst]
      by_cases hbyte : firstAfter (buf 0) bootmode = 99
      · -- the byte is not the value's, so it is the one that the stack has held
        have hkeep : Keeps bootmode [] := by
          by_contra hkeep
          rw [firstAfter, if_neg hkeep] at hbyte
          exact hfirst (eq_some_of_getD (by decide) hbyte)
        rw [if_pos hbyte]
        rw [firstAfter, if_pos hkeep] at hbyte
        refine iff_of_false ?_ fun h => h.modeByte hkeep hbyte
        split <;> simp
      · rw [if_neg hbyte]
        exact second_iff hmode ha hbyte
  · obtain ⟨e, he⟩ := isAfter_new.query_fault hmode
    rw [he]
    refine iff_of_false (fun h => by cases h) ?_
    rintro (h | h)
    · exact hmode (hears_of_firstOf [] h)
    · exact hmode h.mode

/-- **Two queries without an answer, on a stack that holds a `c`**: the device is taken for one that charges. -/
theorem stackByte_decides : updateState .booting (fun _ => 99) noChild noChild ≠ .ok (decided noChild noChild) := by
  have hrun : updateState .booting (fun _ => 99) noChild noChild = .ok ⟨.charger, true, true⟩ := by decide
  have hsay : decided noChild noChild = ⟨.booting, false, false⟩ := by decide
  rw [hrun, hsay]
  decide

end DevMgr.SmartDeviceAdb
