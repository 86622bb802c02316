import DevMgr.AdbDeviceMon
/-!
# ProcessDevices — the lists follow the enumeration

The loop over the ids gives each the first device of `NewList` that has it, a matching of the old devices with the ids;
what finds none is attached, and what is left is detached.  Repeated ids are matched one to one.
-/
namespace DevMgr

open Machines Matching

/-- The ids that have no device yet. -/
def AdbMonPc.todo {Id : Type} : AdbMonPc Id → List Id
  | .scanning _ todo | .addRef _ _ todo | .onAttached _ _ todo => todo
  | _ => []

/-- The device that `_DeviceList` gets when `OnDeviceAttached` returns. -/
def AdbMonPc.coming {Id : Type} : AdbMonPc Id → List (SmartDev Id)
  | .addRef d _ _ | .onAttached d _ _ => [d]
  | _ => []

def AdbMonPc.rest {Id : Type} : AdbMonPc Id → List (SmartDev Id)
  | .idle => []
  | .scanning l _ | .addRef _ l _ | .onAttached _ l _ | .release _ l | .onDetached _ l | .dropping _ l => l

namespace AdbMonState

variable {Id : Type} [DecidableEq Id] {s s' : AdbMonState Id} {a : AdbMonStep Id} {d : SmartDev Id}

/-- **The lists follow the enumeration**: `_DeviceList` has the ids in their order; of each id as many devices are kept
as there were and are, the others are made by this call and attached or have gone and been detached; `DeviceCenter` has
the same devices and refused none. -/
structure Reconciled (s : AdbMonState Id) : Prop where
  ids : s.deviceList.map SmartDev.deviceId = s.szDevId
  kept : ∀ szId, ((s.deviceList.filter (· ∈ s.old)).map SmartDev.deviceId).count szId =
    min ((s.old.map SmartDev.deviceId).count szId) (s.szDevId.count szId)
  attached : ∀ szId, (s.attached.map SmartDev.deviceId).count szId =
    s.szDevId.count szId - (s.old.map SmartDev.deviceId).count szId
  fresh : s.deviceList.filter (· ∉ s.old) = s.attached ∧
    ∀ d ∈ s.attached, s.firstNew ≤ d.pDevice ∧ ∀ d' ∈ s.old, d'.pDevice < s.firstNew
  detached : ∀ szId, (s.detached.map SmartDev.deviceId).count szId =
    (s.old.map SmartDev.deviceId).count szId - s.szDevId.count szId
  dropped : s.detached.Nodup ∧ ∀ d, d ∈ s.detached ↔ d ∈ s.old ∧ d ∉ s.deviceList
  center : s.deviceList.Nodup ∧ s.center.deviceList.Perm s.deviceList
  branches : s.alreadyExists = false ∧ s.notFound = false

/-- The device has the id. -/
def fits (d : SmartDev Id) (szId : Id) : Bool := decide (d.deviceId = szId)

/-- What the ids `done` have got, of the devices there were and of those made since. -/
structure Filled (old attached got : List (SmartDev Id)) (done : List Id) : Prop where
  ids : got.map SmartDev.deviceId = done
  kept : got.filter (· ∈ old) = (assign fits old done).1.filterMap Prod.snd
  fresh : got.filter (· ∉ old) = attached
  untaken : attached.map SmartDev.deviceId = ((assign fits old done).1.filter (·.2.isNone)).map Prod.fst

section
variable {old attached got rest : List (SmartDev Id)} {done : List Id} {szId : Id}

theorem Filled.new (h : Filled old attached got done) (hn : takeFirst (fits · szId) (assign fits old done).2 = none)
    (hd : d ∉ old) (hid : d.deviceId = szId) : Filled old (attached ++ [d]) (got ++ [d]) (done ++ [szId]) := by
  constructor
  · rw [List.map_append, h.ids, List.map_singleton, hid]
  · rw [assign_concat_none hn, List.filter_append, h.kept, List.filterMap_append, List.filter_cons_of_neg (by simpa)]
    rfl
  · rw [List.filter_append, h.fresh, List.filter_cons_of_pos (by simpa)]
    rfl
  · rw [assign_concat_none hn, List.map_append, h.untaken, List.map_singleton, hid, List.filter_append,
      List.map_append]
    rfl

theorem Filled.known (h : Filled old attached got done)
    (hs : takeFirst (fits · szId) (assign fits old done).2 = some (d, rest)) :
    Filled old attached (got ++ [d]) (done ++ [szId]) := by
  have hid : d.deviceId = szId := of_decide_eq_true (takeFirst_some hs).1
  have hd : d ∈ old :=
    (assign_sublist fits done old).subset ((takeFirst_perm hs).mem_iff.2 List.mem_cons_self)
  constructor
  · rw [List.map_append, h.ids, List.map_singleton, hid]
  · rw [assign_concat_some hs, List.filter_append, h.kept, List.filterMap_append, List.filter_cons_of_pos (by simpa)]
    rfl
  · rw [List.filter_append, h.fresh, List.filter_cons_of_neg (by simpa)]
    exact List.append_nil _
  · rw [assign_concat_some hs, h.untaken, List.filter_append, List.map_append]
    exact (List.append_nil _).symm

end

/-- The numbers of the devices that there were, and of those made since. -/
structure Numbered (s : AdbMonState Id) : Prop where
  old : ∀ d ∈ s.old, d.pDevice < s.firstNew
  new : ∀ d ∈ s.attached, s.firstNew ≤ d.pDevice
  first : s.firstNew ≤ s.created
  nodup : s.old.Nodup

/-- The ids `done` have their devices, the others are still to get them, and what is left is detached last. -/
structure Matched (s : AdbMonState Id) (done : List Id) : Prop where
  ids : s.szDevId = done ++ s.pc.todo
  filled : Filled s.old s.attached (s.deviceList ++ s.pc.coming) done
  left : s.detached ++ s.pc.rest = (assign fits s.old done).2
  early : s.pc.todo ≠ [] → s.detached = []

structure Reconciling (s : AdbMonState Id) : Prop where
  lists : s.Lists
  numbered : s.Numbered
  matched : ∃ done, s.Matched done

/-- A step that only moves a device on. -/
theorem Matched.congr {done : List Id} (h : s.Matched done) (h1 : s'.szDevId = s.szDevId) (h2 : s'.old = s.old)
    (h3 : s'.attached = s.attached) (h4 : s'.pc.todo = s.pc.todo)
    (h5 : s'.deviceList ++ s'.pc.coming = s.deviceList ++ s.pc.coming)
    (h6 : s'.detached ++ s'.pc.rest = s.detached ++ s.pc.rest) (h7 : s.pc.todo ≠ [] → s'.detached = s.detached) :
    s'.Matched done := by
  constructor
  · rw [h1, h4]
    exact h.ids
  · rw [h2, h3, h5]
    exact h.filled
  · rw [h6, h2]
    exact h.left
  · rw [h4]
    exact fun hn => (h7 hn).trans (h.early hn)

/-- A step of the thread that leaves the ids and the devices where they are. -/
theorem Matched.goes {done : List Id} (h : s.Matched done) {pc pc' : AdbMonPc Id} (hpc : s.pc = pc)
    (he : pc'.todo = pc.todo ∧ pc'.coming = pc.coming ∧ pc'.rest = pc.rest) (adb : AdbState (SmartDev Id)) :
    Matched { s with adb := adb, pc := pc' } done := by
  subst hpc
  obtain ⟨h1, h2, h3⟩ := he
  exact h.congr rfl rfl rfl h1 (congrArg _ h2) (congrArg _ h3) fun _ => rfl

theorem Matched.search {done : List Id} (h : s.Matched done) {newList : List (SmartDev Id)} {szId : Id}
    {todo : List Id} (hpc : s.pc = .scanning newList (szId :: todo)) :
    s.szDevId = done ++ [szId] ++ todo ∧ Filled s.old s.attached s.deviceList done ∧ s.detached = [] ∧
      newList = (assign fits s.old done).2 := by
  have h1 := h.ids
  have h2 := h.filled
  have h3 := h.left
  have h4 := h.early
  rw [hpc] at h1 h2 h3 h4
  have hd := h4 (List.cons_ne_nil szId todo)
  rw [hd] at h3
  refine ⟨?_, ?_, hd, h3⟩
  · rw [h1, List.append_assoc]
    rfl
  · rw [← List.append_nil s.deviceList]
    exact h2

theorem Reconciling.scanNew (h : s.Reconciling) {newList : List (SmartDev Id)} {szId : Id} {todo : List Id}
    (hpc : s.pc = .scanning newList (szId :: todo))
    (hf : takeFirst (fun d => decide (d.deviceId = szId)) newList = none) :
    ∃ done, (s.attach ⟨s.created, szId⟩ newList todo).Matched done := by
  obtain ⟨done, hm⟩ := h.matched
  obtain ⟨hids, hfilled, hdet, hleft⟩ := hm.search hpc
  rw [hleft] at hf
  have hnew : (⟨s.created, szId⟩ : SmartDev Id) ∉ s.old := fun hm =>
    absurd (h.numbered.old _ hm) (Nat.not_lt.2 h.numbered.first)
  rw [h.lists.attach_eq hpc]
  refine ⟨done ++ [szId], hids, hfilled.new hf hnew rfl, ?_, fun _ => hdet⟩
  rw [assign_concat_none hf, ← hleft, hdet]
  rfl

theorem Reconciling.scanKnown (h : s.Reconciling) {newList : List (SmartDev Id)} {szId : Id} {todo : List Id}
    {rest : List (SmartDev Id)} (hpc : s.pc = .scanning newList (szId :: todo))
    (hf : takeFirst (fun d => decide (d.deviceId = szId)) newList = some (d, rest)) :
    ∃ done, Matched { s with deviceList := s.deviceList ++ [d], pc := .scanning rest todo } done := by
  obtain ⟨done, hm⟩ := h.matched
  obtain ⟨hids, hfilled, hdet, hleft⟩ := hm.search hpc
  rw [hleft] at hf
  refine ⟨done ++ [szId], hids, ?_, ?_, fun _ => hdet⟩
  · rw [AdbMonPc.coming, List.append_nil]
    · exact hfilled.known hf
    all_goals exact fun _ _ _ he => by cases he
  · rw [assign_concat_some hf, hdet]
    rfl

theorem Reconciling.matched_act (h : s.Reconciling) (ha : Acts s a s') : ∃ done, s'.Matched done := by
  obtain ⟨done, hm⟩ := h.matched
  cases ha with
  | processDevices szDevId hpc => exact ⟨[], rfl, ⟨rfl, rfl, rfl, rfl⟩, rfl, fun _ => rfl⟩
  | scanNew hpc hf => exact h.scanNew hpc hf
  | scanKnown hpc hf => exact h.scanKnown hpc hf
  | addRef hpc => exact ⟨done, hm.goes hpc ⟨by rfl, by rfl, by rfl⟩ _⟩
  | onAttached hpc =>
    refine ⟨done, hm.congr rfl rfl rfl (by rw [hpc]; rfl) ?_ (by rw [hpc]; rfl) fun _ => rfl⟩
    rw [hpc]
    exact List.append_nil _
  | popFront hpc =>
    rw [(h.lists.detach_eq hpc).2]
    refine ⟨done, hm.congr rfl rfl rfl (by rw [hpc]; rfl) (by rw [hpc]; rfl) ?_ fun hn => ?_⟩
    · rw [hpc]
      exact List.append_assoc ..
    · rw [hpc] at hn
      exact absurd rfl hn
  | finish hpc => exact ⟨done, hm.goes hpc ⟨by rfl, by rfl, by rfl⟩ _⟩
  | centerRelease hpc => exact ⟨done, hm.goes hpc ⟨by rfl, by rfl, by rfl⟩ _⟩
  | onDetached hpc => exact ⟨done, hm.goes hpc ⟨by rfl, by rfl, by rfl⟩ _⟩
  | drop hpc hd => exact ⟨done, hm.goes hpc ⟨by rfl, by rfl, by rfl⟩ _⟩
  | notFound szId hf => exact ⟨done, hm⟩
  | getDevice szId hf => exact ⟨done, hm.congr rfl rfl rfl rfl rfl rfl fun _ => rfl⟩
  | release hg hd => exact ⟨done, hm.congr rfl rfl rfl rfl rfl rfl fun _ => rfl⟩
  | adb ha ht => exact ⟨done, hm.congr rfl rfl rfl rfl rfl rfl fun _ => rfl⟩

theorem Reconciling.numbered_act (h : s.Reconciling) (ha : Acts s a s') : s'.Numbered := by
  have hn := h.numbered
  cases ha with
  | processDevices szDevId hpc =>
    exact ⟨fun d hd => h.lists.known d (List.mem_append_left _ hd), fun d hd => absurd hd List.not_mem_nil,
      Nat.le_refl _, h.lists.nodup.sublist (List.sublist_append_left ..)⟩
  | scanNew hpc hf =>
    rw [h.lists.attach_eq hpc]
    refine ⟨hn.old, fun d hd => ?_, Nat.le_succ_of_le hn.first, hn.nodup⟩
    rcases List.mem_append.1 hd with hd | hd
    · exact hn.new d hd
    · rw [List.mem_singleton.1 hd]
      exact hn.first
  | popFront hpc =>
    rw [(h.lists.detach_eq hpc).2]
    exact ⟨hn.old, hn.new, hn.first, hn.nodup⟩
  | _ => exact ⟨hn.old, hn.new, hn.first, hn.nodup⟩

theorem Reconciling.step (h : s.Reconciling) (hs : s.step a = some s') : s'.Reconciling := by
  obtain ⟨t, ht, rfl⟩ := step_some hs
  have hn := h.numbered_act ht
  obtain ⟨done, hm⟩ := h.matched_act ht
  exact ⟨h.lists.step hs, ⟨hn.old, hn.new, hn.first, hn.nodup⟩, done, hm.congr rfl rfl rfl rfl rfl rfl fun _ => rfl⟩

theorem reconciling_start : (start : AdbMonState Id).Reconciling where
  lists := lists_start
  numbered := ⟨fun _ h => absurd h List.not_mem_nil, fun _ h => absurd h List.not_mem_nil, Nat.le_refl _, .nil⟩
  matched := ⟨[], rfl, ⟨rfl, rfl, rfl, rfl⟩, rfl, fun _ => rfl⟩

theorem reconciling_reach (h : (machine Id).Reach s) : s.Reconciling :=
  h.invariant (by rintro _ rfl; exact reconciling_start) fun _ _ _ hi hs => hi.step hs

/-- What the matching says when the call is over. -/
theorem Reconciling.reconciled (h : s.Reconciling) (hpc : s.pc = .idle) : s.Reconciled := by
  obtain ⟨done, hm⟩ := h.matched
  have hids := hm.ids
  have hfilled := hm.filled
  have hleft := hm.left
  have hnodup := h.lists.nodup
  have hcenter := h.lists.center
  rw [hpc] at hids hfilled hleft hnodup hcenter
  simp only [AdbMonPc.todo, AdbMonPc.coming, AdbMonPc.rest, AdbMonPc.held, AdbMonPc.listed,
    List.append_nil] at hids hfilled hleft hnodup hcenter
  subst hids
  have hperm := assign_perm fits s.szDevId s.old
  rw [← hfilled.kept, ← hleft] at hperm
  have hdisj := List.disjoint_of_nodup_append (hperm.nodup_iff.1 h.numbered.nodup)
  constructor
  · exact hfilled.ids
  · intro szId
    rw [hfilled.kept]
    exact count_assign SmartDev.deviceId szId s.szDevId s.old
  · intro szId
    rw [hfilled.untaken]
    exact count_untaken SmartDev.deviceId szId s.szDevId s.old
  · exact ⟨hfilled.fresh, fun d hd => ⟨h.numbered.new d hd, h.numbered.old⟩⟩
  · intro szId
    rw [hleft]
    exact count_left SmartDev.deviceId szId s.szDevId s.old
  · refine ⟨hleft ▸ h.numbered.nodup.sublist (assign_sublist ..), fun d => ?_⟩
    constructor
    · intro hd
      have ho := hperm.mem_iff.2 (List.mem_append_right _ hd)
      exact ⟨ho, fun hl => hdisj (List.mem_filter.2 ⟨hl, decide_eq_true ho⟩) hd⟩
    · rintro ⟨ho, hn⟩
      exact (List.mem_append.1 (hperm.mem_iff.1 ho)).resolve_left fun hk => hn (List.mem_of_mem_filter hk)
  · exact ⟨hnodup, hcenter⟩
  · exact ⟨h.lists.attaches, h.lists.detaches⟩

/-! ## The call returns -/

/-- The call in progress can be run to its end. -/
def Completes (s : AdbMonState Id) : Prop :=
  ∃ s', (machine Id).After s s' ∧ s'.pc = .idle ∧ s'.szDevId = s.szDevId ∧ s'.old = s.old

theorem Completes.head {t : AdbMonState Id} (hs : s.act a = some t) (h1 : t.szDevId = s.szDevId) (h2 : t.old = s.old)
    (h : (t.tally (s.released a)).Completes) : s.Completes := by
  obtain ⟨s', ha, hpc, h3, h4⟩ := h
  have hstep : (machine Id).step s a = some (t.tally (s.released a)) := congrArg (Option.map _) hs
  exact ⟨s', .head hstep ha, hpc, h3.trans h1, h4.trans h2⟩

/-- Runs of the command queues. -/
def Meanwhile (s t : AdbMonState Id) : Prop :=
  (machine Id).After s t ∧ t.pc = s.pc ∧ t.szDevId = s.szDevId ∧ t.old = s.old

theorem Meanwhile.refl (s : AdbMonState Id) : s.Meanwhile s := ⟨.refl s, rfl, rfl, rfl⟩

theorem Meanwhile.trans {t u : AdbMonState Id} (h : s.Meanwhile t) (h' : t.Meanwhile u) : s.Meanwhile u :=
  ⟨h.1.trans h'.1, h'.2.1.trans h.2.1, h'.2.2.1.trans h.2.2.1, h'.2.2.2.trans h.2.2.2⟩

theorem meanwhile_adb {b : AdbStep (SmartDev Id)} {t : AdbState (SmartDev Id)} (hb : b.inQueues = true)
    (ht : s.adb.step false b = some t) : ∃ u, s.Meanwhile u ∧ u.adb = t := by
  have hact : s.act (.adb b) = some { s with adb := t } := by
    rw [act, if_pos hb, ht]
    rfl
  exact ⟨_, ⟨.head (a := .adb b) (congrArg (Option.map _) hact) (.refl _), rfl, rfl, rfl⟩, rfl⟩

/-- A `QueueCmd` in its critical section leaves it. -/
theorem settle_one (s : AdbMonState Id) (d : SmartDev Id) (q : Queue) : ∃ t, s.Meanwhile t ∧ t.adb.call d q = .none ∧
    ∀ q', q' ≠ q → t.adb.call d q' = s.adb.call d q' := by
  have hpost : ∀ (s : AdbMonState Id) b, s.adb.call d q = .posting b → ∃ t, s.Meanwhile t ∧ t.adb.call d q = .none ∧
      ∀ q', q' ≠ q → t.adb.call d q' = s.adb.call d q' := by
    intro s b hc
    obtain ⟨t, ht, he⟩ := meanwhile_adb (s := s) (b := .post d q) rfl (by rw [AdbState.step, hc])
    refine ⟨t, ht, ?_, fun q' hq => ?_⟩
    · rw [he]
      exact upd₂_self ..
    · rw [he]
      exact upd₂_of_ne _ _ _ _ fun hn => hq hn.2
  cases hc : s.adb.call d q with
  | none => exact ⟨s, .refl s, hc, fun _ _ => rfl⟩
  | posting b => exact hpost s b hc
  | requesting =>
    obtain ⟨t, ht, he⟩ := meanwhile_adb (s := s) (b := .request d q) rfl (if_pos hc)
    have hother : ∀ q', q' ≠ q → t.adb.call d q' = s.adb.call d q' := by
      intro q' hq
      rw [he]
      unfold AdbState.request
      split
      · exact upd₂_of_ne _ _ _ _ fun hn => hq hn.2
      · exact upd₂_of_ne _ _ _ _ fun hn => hq hn.2
    have hself : t.adb.call d q = .none ∨ ∃ b, t.adb.call d q = .posting b := by
      rw [he]
      unfold AdbState.request
      split
      · exact .inl (upd₂_self ..)
      · exact .inr ⟨_, upd₂_self ..⟩
    rcases hself with hn | ⟨b, hb⟩
    · exact ⟨t, ht, hn, hother⟩
    · obtain ⟨u, hu, hn, ho⟩ := hpost t b hb
      exact ⟨u, ht.trans hu, hn, fun q' hq => (ho q' hq).trans (hother q' hq)⟩

theorem settle (s : AdbMonState Id) (d : SmartDev Id) : ∀ qs : List Queue, ∃ t, s.Meanwhile t ∧
    ∀ q ∈ qs, t.adb.call d q = .none
  | [] => ⟨s, .refl s, fun _ hq => absurd hq List.not_mem_nil⟩
  | q :: qs => by
    obtain ⟨t, ht, hn⟩ := settle s d qs
    obtain ⟨u, hu, h1, h2⟩ := settle_one t d q
    refine ⟨u, ht.trans hu, fun q' hq => ?_⟩
    by_cases he : q' = q
    · rw [he, h1]
    · rw [h2 q' he]
      exact hn q' ((List.mem_cons.1 hq).resolve_left he)

theorem Meanwhile.completes {t : AdbMonState Id} (h : s.Meanwhile t) (ht : t.Completes) : s.Completes := by
  obtain ⟨s', ha, hpc, h3, h4⟩ := ht
  exact ⟨s', h.1.trans ha, hpc, h3.trans h.2.2.1, h4.trans h.2.2.2⟩

theorem completes_leaving : ∀ (newList : List (SmartDev Id)) (s : AdbMonState Id), s.pc = .scanning newList [] →
    s.Completes
  | [], s, hpc => by
    refine .head (a := .popFront) (t := { s with pc := .idle }) (by rw [act, hpc]) rfl rfl ?_
    exact ⟨_, .refl _, rfl, rfl, rfl⟩
  | d :: l, s, hpc => by
    have hdrop : ∀ t : AdbMonState Id, t.pc = .dropping d l → t.Completes := by
      intro t ht
      obtain ⟨u, hu, hn⟩ := settle t d (List.finRange adbDevQueueCnt)
      refine hu.completes (.head (a := .drop) (t := { u with adb := u.adb.unhold d, pc := .scanning l [] }) ?_ rfl rfl
        (completes_leaving l _ rfl))
      rw [act, hu.2.1.trans ht]
      exact if_pos (.inr fun q => hn q (List.mem_finRange q))
    have hpop : s.act .popFront = some (s.detach d l) := by rw [act, hpc]
    cases hc : s.center.onDeviceDetached d with
    | none =>
      rw [detach_none hc] at hpop
      exact .head hpop rfl rfl (hdrop _ rfl)
    | some c =>
      rw [detach_some hc] at hpop
      refine .head hpop rfl rfl (.head (a := .centerRelease) rfl rfl rfl ?_)
      exact .head (a := .onDetached) rfl rfl rfl (hdrop _ rfl)

theorem completes_scanning : ∀ (todo : List Id) (newList : List (SmartDev Id)) (s : AdbMonState Id),
    s.pc = .scanning newList todo → s.Completes
  | [], newList, s, hpc => completes_leaving newList s hpc
  | szId :: todo, newList, s, hpc => by
    cases hf : takeFirst (fun d => decide (d.deviceId = szId)) newList with
    | some x =>
      refine .head (a := .scan) (t := { s with deviceList := s.deviceList ++ [x.1], pc := .scanning x.2 todo }) ?_ rfl
        rfl (completes_scanning todo x.2 _ rfl)
      rw [act, hpc]
      dsimp only
      rw [hf]
    | none =>
      have hscan : s.act .scan = some (s.attach ⟨s.created, szId⟩ newList todo) := by
        rw [act, hpc]
        dsimp only
        rw [hf]
      cases hc : s.center.onDeviceAttached ⟨s.created, szId⟩ with
      | none =>
        rw [attach_none hc] at hscan
        exact .head hscan rfl rfl (completes_scanning todo newList _ rfl)
      | some c =>
        rw [attach_some hc] at hscan
        refine .head hscan rfl rfl (.head (a := .addRef) rfl rfl rfl ?_)
        exact .head (a := .onAttached) rfl rfl rfl (completes_scanning todo newList _ rfl)

/-- **Every call of `ProcessDevices` returns, and the lists then follow the enumeration.** -/
theorem process_devices (h : (machine Id).Reach s) (hpc : s.pc = .idle) : s.Reconciled ∧
    ∀ szDevId : List Id, ∃ t s', (machine Id).step s (.processDevices szDevId) = some t ∧ (machine Id).After t s' ∧
      s'.pc = .idle ∧ s'.szDevId = szDevId ∧ s'.old = s.deviceList ∧ s'.Reconciled := by
  refine ⟨(reconciling_reach h).reconciled hpc, fun szDevId => ?_⟩
  obtain ⟨t, ht, htpc, hids, hold⟩ : ∃ t, (machine Id).step s (.processDevices szDevId) = some t ∧
      t.pc = .scanning s.deviceList szDevId ∧ t.szDevId = szDevId ∧ t.old = s.deviceList := by
    have hact : s.act (.processDevices szDevId) = some { s with
        deviceList := [], pc := .scanning s.deviceList szDevId, szDevId := szDevId, old := s.deviceList
        firstNew := s.created, attached := [], detached := [] } := by rw [act, hpc]
    exact ⟨_, congrArg (Option.map _) hact, rfl, rfl, rfl⟩
  obtain ⟨s', ha, hpc', hids', hold'⟩ := completes_scanning szDevId s.deviceList t htpc
  have hr : s'.Reconciling := reconciling_reach ((h.step ht).after ha)
  exact ⟨t, s', ht, ha, hpc', hids'.trans hids, hold'.trans hold, hr.reconciled hpc'⟩

/-- Two devices of one id, one of which goes while another comes. -/
def twinsRun : List (AdbMonStep Nat) := [.processDevices [7, 7, 8], .scan, .addRef, .onAttached, .scan, .addRef,
  .onAttached, .scan, .addRef, .onAttached, .popFront, .processDevices [8, 7, 9], .scan, .scan, .scan, .addRef,
  .onAttached, .popFront, .centerRelease, .onDetached, .drop, .popFront]

theorem process_devices_twins : ∃ s, (machine Nat).run start twinsRun = some s ∧
    s.deviceList = [⟨2, 8⟩, ⟨0, 7⟩, ⟨3, 9⟩] ∧ s.attached = [⟨3, 9⟩] ∧ s.detached = [⟨1, 7⟩] ∧ s.Reconciled := by
  obtain ⟨s, hs, h⟩ := Option.map_eq_some_iff.1
    (show ((machine Nat).run start twinsRun).map (fun s => (s.pc, s.deviceList, s.attached, s.detached)) =
      some (.idle, [⟨2, 8⟩, ⟨0, 7⟩, ⟨3, 9⟩], [⟨3, 9⟩], [⟨1, 7⟩]) by decide)
  obtain ⟨hpc, h⟩ := Prod.mk.inj h
  obtain ⟨hl, h⟩ := Prod.mk.inj h
  obtain ⟨ha, hd⟩ := Prod.mk.inj h
  exact ⟨s, hs, hl, ha, hd, (process_devices (Machine.Reach.run (.init rfl) hs) hpc).1⟩

end AdbMonState

end DevMgr
