import DevMgr.MtpDeviceMon
/-!
# MtpHandles — an MTP handle is valid while it is held

`Sound` relates the records of both lists with the handles that are open and those that callers hold; it does not depend
on the order of the records, and `CreateRec`, `InitRec`, `FreeRec` and the two calls each keep it.
-/
namespace DevMgr

open Machines Matching MtpDeviceMon

variable {Id Handle : Type} [DecidableEq Handle]

/-- **The records**: each is one allocation with a handle of its own, and counts the callers that hold it. -/
structure Sound (recs freed : List (MtpRec Id Handle)) (created : Nat) (opened held : List Handle) : Prop where
  ptrs : ((recs ++ freed).map MtpRec.pRec).Nodup
  fresh : ∀ r ∈ recs ++ freed, r.pRec < created
  handles : (recs.filterMap MtpRec.pMtpDevice).Nodup
  opened : ∀ r ∈ recs, ∀ h, r.pMtpDevice = some h → h ∈ opened
  counts : ∀ r ∈ recs, r.dwRefCnt = r.pMtpDevice.elim 0 (held.count ·)
  owned : ∀ h ∈ held, ∃ r ∈ recs, r.pMtpDevice = some h
  unused : ∀ r ∈ freed, r.dwRefCnt = 0

namespace Sound

variable {recs recs' freed : List (MtpRec Id Handle)} {created : Nat} {opened held : List Handle}
  {r r' : MtpRec Id Handle} {h : Handle}

theorem perm (hs : Sound recs freed created opened held) (hp : recs.Perm recs') :
    Sound recs' freed created opened held := by
  have hm : ∀ r, r ∈ recs' ↔ r ∈ recs := fun r => hp.mem_iff.symm
  constructor
  · exact ((hp.append_right freed).map MtpRec.pRec).nodup_iff.1 hs.ptrs
  · intro r hr
    exact hs.fresh r ((hp.append_right freed).mem_iff.2 hr)
  · exact (hp.filterMap MtpRec.pMtpDevice).nodup_iff.1 hs.handles
  · exact fun r hr => hs.opened r ((hm r).1 hr)
  · exact fun r hr => hs.counts r ((hm r).1 hr)
  · intro h hh
    obtain ⟨r, hr, he⟩ := hs.owned h hh
    exact ⟨r, (hm r).2 hr, he⟩
  · exact hs.unused

/-- No other record has the handle. -/
theorem handle_ne (hs : Sound (r :: recs) freed created opened held) (hr : r.pMtpDevice = some h) :
    ∀ x ∈ recs, x.pMtpDevice ≠ some h := by
  intro x hx he
  have hn := hs.handles
  rw [List.filterMap_cons_some hr, List.nodup_cons] at hn
  exact hn.1 (List.mem_filterMap.2 ⟨x, hx, he⟩)

/-- A record is changed in place, and the callers' handles with it. -/
theorem change {held' opened' : List Handle} (hs : Sound (r :: recs) freed created opened held)
    (hptr : r'.pRec = r.pRec) (hsub : ∀ h ∈ opened, h ∈ opened')
    (hnew : ∀ h, r'.pMtpDevice = some h → h ∈ opened' ∧ ∀ x ∈ recs, x.pMtpDevice ≠ some h)
    (hcnt : r'.dwRefCnt = r'.pMtpDevice.elim 0 (held'.count ·))
    (hrest : ∀ x ∈ recs, ∀ h, x.pMtpDevice = some h → held'.count h = held.count h)
    (hown : ∀ h ∈ held', r'.pMtpDevice = some h ∨ h ∈ held ∧ r.pMtpDevice ≠ some h) :
    Sound (r' :: recs) freed created opened' held' := by
  constructor
  · have hp := hs.ptrs
    rw [List.cons_append, List.map_cons] at hp ⊢
    rwa [hptr]
  · intro x hx
    rcases List.mem_cons.1 hx with rfl | hx
    · rw [hptr]
      exact hs.fresh r List.mem_cons_self
    · exact hs.fresh x (List.mem_cons_of_mem r hx)
  · have hn := (List.sublist_cons_self r recs).filterMap MtpRec.pMtpDevice |>.nodup hs.handles
    cases hr : r'.pMtpDevice with
    | none => rwa [List.filterMap_cons_none hr]
    | some h =>
      rw [List.filterMap_cons_some hr, List.nodup_cons]
      refine ⟨fun hm => ?_, hn⟩
      obtain ⟨x, hx, he⟩ := List.mem_filterMap.1 hm
      exact (hnew h hr).2 x hx he
  · intro x hx h he
    rcases List.mem_cons.1 hx with rfl | hx
    · exact (hnew h he).1
    · exact hsub h (hs.opened x (List.mem_cons_of_mem r hx) h he)
  · intro x hx
    rcases List.mem_cons.1 hx with rfl | hx
    · exact hcnt
    · rw [hs.counts x (List.mem_cons_of_mem r hx)]
      cases he : x.pMtpDevice with
      | none => rfl
      | some h => exact (hrest x hx h he).symm
  · intro h hh
    rcases hown h hh with he | ⟨hh, hne⟩
    · exact ⟨r', List.mem_cons_self, he⟩
    · obtain ⟨x, hx, he⟩ := hs.owned h hh
      rcases List.mem_cons.1 hx with rfl | hx
      · exact absurd he hne
      · exact ⟨x, List.mem_cons_of_mem r' hx, he⟩
  · exact hs.unused

theorem mark (hs : Sound (r :: recs) freed created opened held) (b : Bool) :
    Sound ({ r with bRemove := b } :: recs) freed created opened held := by
  refine hs.change rfl (fun _ => id) (fun h hr => ⟨hs.opened r List.mem_cons_self h hr, hs.handle_ne hr⟩)
    (hs.counts r List.mem_cons_self) (fun _ _ _ _ => rfl) fun h hh => ?_
  by_cases hr : r.pMtpDevice = some h
  · exact .inl hr
  · exact .inr ⟨hh, hr⟩

/-- `InitRec` of a record without a handle: the new one is not open, so no caller holds it. -/
theorem init (hs : Sound (r :: recs) freed created opened held) (hr : r.pMtpDevice = none) (hh : h ∉ opened) :
    Sound ({ r with pMtpDevice := some h } :: recs) freed created (opened ++ [h]) held := by
  have hheld : h ∉ held := by
    intro hm
    obtain ⟨x, hx, he⟩ := hs.owned h hm
    exact hh (hs.opened x hx h he)
  refine hs.change rfl (fun _ => List.mem_append_left _) ?_ ?_ (fun _ _ _ _ => rfl) fun h' hm => .inr ⟨hm, by simp [hr]⟩
  · rintro h' ⟨⟩
    refine ⟨List.mem_append_right _ (List.mem_singleton.2 rfl), fun x hx he => ?_⟩
    exact hh (hs.opened x (List.mem_cons_of_mem r hx) h he)
  · have hc := hs.counts r List.mem_cons_self
    rw [hr] at hc
    show r.dwRefCnt = held.count h
    rw [hc, List.count_eq_zero.2 hheld]
    rfl

theorem get (hs : Sound (r :: recs) freed created opened held) (hr : r.pMtpDevice = some h) :
    Sound ({ r with dwRefCnt := r.dwRefCnt + 1 } :: recs) freed created opened (held ++ [h]) := by
  have hc := hs.counts r List.mem_cons_self
  rw [hr] at hc
  refine hs.change rfl (fun _ => id) (fun h' he => ⟨hs.opened r List.mem_cons_self h' he, hs.handle_ne he⟩) ?_ ?_ ?_
  · show r.dwRefCnt + 1 = r.pMtpDevice.elim 0 ((held ++ [h]).count ·)
    rw [hr, hc]
    simp
  · intro x hx h' he
    have hne : h ≠ h' := by
      rintro rfl
      exact hs.handle_ne hr x hx he
    rw [List.count_append, List.count_singleton, if_neg (by simpa using hne), Nat.add_zero]
  · intro h' hm
    by_cases he : r.pMtpDevice = some h'
    · exact .inl he
    · refine .inr ⟨(List.mem_append.1 hm).resolve_right fun hm => ?_, he⟩
      exact he (by rw [List.mem_singleton.1 hm, hr])

theorem release (hs : Sound (r :: recs) freed created opened held) (hr : r.pMtpDevice = some h) (hh : h ∈ held) :
    Sound ({ r with dwRefCnt := r.dwRefCnt - 1 } :: recs) freed created opened (held.erase h) := by
  have hc := hs.counts r List.mem_cons_self
  rw [hr] at hc
  refine hs.change rfl (fun _ => id) (fun h' he => ⟨hs.opened r List.mem_cons_self h' he, hs.handle_ne he⟩) ?_ ?_ ?_
  · show r.dwRefCnt - 1 = r.pMtpDevice.elim 0 ((held.erase h).count ·)
    rw [hr, hc]
    exact List.count_erase_self.symm
  · intro x hx h' he
    refine List.count_erase_of_ne ?_
    rintro rfl
    exact hs.handle_ne hr x hx he
  · intro h' hm
    by_cases he : r.pMtpDevice = some h'
    · exact .inl he
    · exact .inr ⟨List.mem_of_mem_erase hm, he⟩

/-- `FreeRec` of a record that nobody holds. -/
theorem free (hs : Sound (r :: recs) freed created opened held) (h0 : r.dwRefCnt = 0) :
    Sound recs (freed ++ [r]) created (match r.pMtpDevice with
      | some h => opened.erase h
      | none => opened) held := by
  have hsub : ∀ x ∈ recs, x ∈ r :: recs := fun x hx => List.mem_cons_of_mem r hx
  have hp : (r :: recs ++ freed).Perm (recs ++ (freed ++ [r])) := by
    rw [← List.append_assoc, List.cons_append]
    exact (List.perm_append_singleton r (recs ++ freed)).symm
  constructor
  · exact (hp.map MtpRec.pRec).nodup_iff.1 hs.ptrs
  · intro x hx
    exact hs.fresh x (hp.mem_iff.2 hx)
  · exact (List.sublist_cons_self r recs).filterMap MtpRec.pMtpDevice |>.nodup hs.handles
  · intro x hx h he
    have hm := hs.opened x (hsub x hx) h he
    cases hr : r.pMtpDevice with
    | none => exact hm
    | some h' =>
      refine (List.mem_erase_of_ne ?_).2 hm
      rintro rfl
      exact hs.handle_ne hr x hx he
  · exact fun x hx => hs.counts x (hsub x hx)
  · intro h hh
    obtain ⟨x, hx, he⟩ := hs.owned h hh
    rcases List.mem_cons.1 hx with rfl | hx
    · have hc := hs.counts x List.mem_cons_self
      rw [he, h0] at hc
      exact absurd hh (List.count_eq_zero.1 hc.symm)
    · exact ⟨x, hx, he⟩
  · intro x hx
    rcases List.mem_append.1 hx with hx | hx
    · exact hs.unused x hx
    · rw [List.mem_singleton.1 hx]
      exact h0

theorem create (hs : Sound recs freed created opened held) (d : BusDevice Id) :
    Sound (createRec created d :: recs) freed (created + 1) opened held := by
  constructor
  · rw [List.cons_append, List.map_cons, List.nodup_cons]
    refine ⟨fun hm => ?_, hs.ptrs⟩
    obtain ⟨x, hx, he⟩ := List.mem_map.1 hm
    exact absurd (he ▸ hs.fresh x hx) (Nat.lt_irrefl _)
  · intro x hx
    rcases List.mem_cons.1 hx with rfl | hx
    · exact Nat.lt_succ_self created
    · exact Nat.lt_succ_of_lt (hs.fresh x hx)
  · rw [List.filterMap_cons_none rfl]
    exact hs.handles
  · intro x hx h he
    rcases List.mem_cons.1 hx with rfl | hx
    · cases he
    · exact hs.opened x hx h he
  · intro x hx
    rcases List.mem_cons.1 hx with rfl | hx
    · rfl
    · exact hs.counts x hx
  · intro h hh
    obtain ⟨x, hx, he⟩ := hs.owned h hh
    exact ⟨x, List.mem_cons_of_mem _ hx, he⟩
  · exact hs.unused

theorem createRecs : ∀ (ds : List (BusDevice Id)) {recs : List (MtpRec Id Handle)} {created : Nat},
    Sound recs freed created opened held →
    Sound (MtpDeviceMon.createRecs created ds ++ recs) freed (created + ds.length) opened held
  | [], recs, created, hs => hs
  | d :: ds, recs, created, hs => by
    have h1 := createRecs ds (hs.create d)
    rw [Nat.add_assoc, Nat.add_comm 1] at h1
    exact h1.perm List.perm_middle

end Sound

omit [DecidableEq Handle] in
/-- **A store through a pointer** changes the one record it points to. -/
theorem setRec_perm {l : List (MtpRec Id Handle)} (hn : (l.map MtpRec.pRec).Nodup) {r r' : MtpRec Id Handle}
    (hr : r ∈ l) (hp : r'.pRec = r.pRec) :
    ∃ rest, l.Perm (r :: rest) ∧ (MtpState.setRec l r').Perm (r' :: rest) := by
  obtain ⟨l₁, l₂, rfl⟩ := List.append_of_mem hr
  refine ⟨l₁ ++ l₂, List.perm_middle, ?_⟩
  rw [List.map_append, List.map_cons] at hn
  have hne : ∀ x ∈ l₁ ++ l₂, x.pRec ≠ r'.pRec := by
    intro x hx he
    rw [hp] at he
    have hm := List.nodup_middle.1 hn
    rw [← List.map_append, List.nodup_cons] at hm
    exact hm.1 (List.mem_map.2 ⟨x, hx, he⟩)
  have hsame : ∀ l, (∀ x ∈ l, x.pRec ≠ r'.pRec) → MtpState.setRec l r' = l := by
    intro l hl
    refine (List.map_congr_left fun x hx => ?_).trans (List.map_id l)
    rw [if_neg (hl x hx)]
    rfl
  have h1 := hsame l₁ fun x hx => hne x (List.mem_append_left _ hx)
  have h2 := hsame l₂ fun x hx => hne x (List.mem_append_right _ hx)
  have h3 : MtpState.setRec (l₁ ++ r :: l₂) r' = l₁ ++ r' :: l₂ := by
    unfold MtpState.setRec at h1 h2 ⊢
    rw [List.map_append, List.map_cons, h1, h2, if_pos hp.symm]
  rw [h3]
  exact List.perm_middle

omit [DecidableEq Handle] in
theorem mem_setRec {l : List (MtpRec Id Handle)} {r x : MtpRec Id Handle} (hx : x ∈ MtpState.setRec l r) :
    x = r ∨ x ∈ l := by
  obtain ⟨y, hy, rfl⟩ := List.mem_map.1 hx
  split
  · exact .inl rfl
  · exact .inr hy

namespace MtpState

variable [DecidableEq Id] {s s' : MtpState Id Handle} {a : MtpStep Id Handle}

def recs (s : MtpState Id Handle) : List (MtpRec Id Handle) := s.deviceList ++ s.pc.newList

structure Inv (s : MtpState Id Handle) : Prop where
  sound : Sound s.recs s.freed s.created s.opened s.held
  ready : ∀ r ∈ s.deviceList, r.pMtpDevice ≠ none
  new : ∀ opened todo, s.pc = .initing opened todo →
    (∀ r ∈ opened, r.pMtpDevice ≠ none) ∧ ∀ r ∈ todo, r.pMtpDevice = none
  unheld : ∀ r ∈ s.pc.newList, r.dwRefCnt = 0
  fine : s.failed = false

omit [DecidableEq Id] in
theorem ptrs_deviceList (h : Inv s) : (s.deviceList.map MtpRec.pRec).Nodup := by
  have hn := h.sound.ptrs
  unfold recs at hn
  rw [List.map_append, List.map_append, List.append_assoc] at hn
  exact hn.of_append_left

omit [DecidableEq Id] in
/-- A handle that is held is that of a record in `_DeviceList`. -/
theorem Inv.listed (h : Inv s) {pDevice : Handle} (hh : pDevice ∈ s.held) :
    ∃ r ∈ s.deviceList, r.pMtpDevice = some pDevice := by
  obtain ⟨r, hr, he⟩ := h.sound.owned pDevice hh
  rcases List.mem_append.1 hr with hr | hr
  · exact ⟨r, hr, he⟩
  · have hc := h.sound.counts r (List.mem_append_right _ hr)
    rw [h.unheld r hr, he] at hc
    exact absurd hh (List.count_eq_zero.1 hc.symm)

theorem Inv.getMtpDevice (h : Inv s) {szId : Id} (hs : step s (.getMtpDevice szId) = some s') : Inv s' := by
  simp only [MtpState.step, lookup] at hs
  split at hs
  · cases hs
    exact h
  · rename_i r hr
    have hm := List.mem_of_find?_eq_some hr
    split at hs
    · rename_i hd
      exact absurd hd (h.ready r hm)
    · rename_i pDevice hd
      cases hs
      obtain ⟨rest, h1, h2⟩ := setRec_perm (ptrs_deviceList h) hm
        (show ({ r with dwRefCnt := r.dwRefCnt + 1 } : MtpRec Id Handle).pRec = r.pRec from rfl)
      have hsound := ((h.sound.perm (h1.append_right s.pc.newList)).get hd).perm (h2.append_right s.pc.newList).symm
      refine ⟨hsound, fun x hx => ?_, h.new, h.unheld, h.fine⟩
      rcases mem_setRec hx with rfl | hx
      · exact h.ready r hm
      · exact h.ready x hx

theorem Inv.releaseMtpDevice (h : Inv s) {pDevice : Handle}
    (hs : step s (.releaseMtpDevice pDevice) = some s') : Inv s' := by
  simp only [MtpState.step] at hs
  split at hs
  · rename_i hh
    obtain ⟨x, hx, hxd⟩ := h.listed hh
    split at hs
    · rename_i hn
      exact absurd hxd (of_decide_eq_false (takeFirst_none hn x hx))
    · rename_i r rest hr
      have hd : r.pMtpDevice = some pDevice := of_decide_eq_true (takeFirst_some hr).1
      have hp := takeFirst_perm hr
      have hm : r ∈ s.deviceList := hp.mem_iff.2 List.mem_cons_self
      have hrel := (h.sound.perm (hp.append_right s.pc.newList)).release hd hh
      split at hs
      · rename_i h0
        cases hs
        exact ⟨hrel.free h0.2, fun x hx => h.ready x (hp.mem_iff.2 (List.mem_cons_of_mem r hx)), h.new, h.unheld,
          h.fine⟩
      · cases hs
        obtain ⟨rest', h1, h2⟩ := setRec_perm (ptrs_deviceList h) hm
          (show ({ r with dwRefCnt := r.dwRefCnt - 1 } : MtpRec Id Handle).pRec = r.pRec from rfl)
        have hrest : rest.Perm rest' := (hp.symm.trans h1).cons_inv
        refine ⟨(hrel.perm ((hrest.append_right s.pc.newList).cons _)).perm (h2.append_right s.pc.newList).symm,
          fun x hx => ?_, h.new, h.unheld, h.fine⟩
        rcases mem_setRec hx with rfl | hx
        · exact h.ready r hm
        · exact h.ready x hx
  · cases hs

omit [DecidableEq Id] in
theorem sound_dropDups : ∀ {dupList : List (MtpRec Id Handle)} {s : MtpState Id Handle},
    Sound (dupList ++ s.recs) s.freed s.created s.opened s.held →
    Sound (s.dropDups dupList).recs (s.dropDups dupList).freed (s.dropDups dupList).created
      (s.dropDups dupList).opened (s.dropDups dupList).held
  | [], s, h => h
  | r :: dupList, s, h => by
    rw [dropDups]
    split
    · refine sound_dropDups ((h.mark true).perm ?_)
      show (_ :: (dupList ++ (s.deviceList ++ s.pc.newList))).Perm
        (dupList ++ (s.deviceList ++ [_] ++ s.pc.newList))
      rw [List.append_assoc s.deviceList, ← List.append_assoc dupList, ← List.append_assoc dupList]
      exact List.perm_middle.symm
    · rename_i hr
      exact sound_dropDups (h.free (by simpa using hr))

omit [DecidableEq Id] in
theorem Inv.processDevices (h : Inv s) (hpc : s.pc = .idle) (ds : List (BusDevice Id)) : Inv (s.processDevices ds) := by
  have hperm : s.deviceList.Perm (kept s.deviceList ds ++ unlisted s.deviceList ds) :=
    assign_perm atAddress ds s.deviceList
  have hready : ∀ r ∈ kept s.deviceList ds ++ unlisted s.deviceList ds, r.pMtpDevice ≠ none :=
    fun r hr => h.ready r (hperm.mem_iff.2 hr)
  have hsound := h.sound
  unfold recs at hsound
  rw [hpc, show (MtpPc.idle : MtpPc Id Handle).newList = [] from rfl, List.append_nil] at hsound
  rw [processDevices_eq]
  obtain ⟨k1, -, -, k2⟩ := dropDups_keeps (unlisted s.deviceList ds) (s.sorted ds)
  constructor
  · refine sound_dropDups (((Sound.createRecs (unknown s.deviceList ds) hsound).perm (hperm.append_left _)).perm ?_)
    refine List.perm_append_comm.trans ?_
    show (kept s.deviceList ds ++ unlisted s.deviceList ds ++ createRecs s.created (unknown s.deviceList ds)).Perm
      (unlisted s.deviceList ds ++ (kept s.deviceList ds ++ createRecs s.created (unknown s.deviceList ds)))
    rw [← List.append_assoc]
    exact List.perm_append_comm.append_right _
  · intro r hr
    rw [dropDups_deviceList] at hr
    rcases List.mem_append.1 hr with hr | hr
    · exact hready r (List.mem_append_left _ hr)
    · obtain ⟨x, hx, rfl⟩ := List.mem_map.1 hr
      exact hready x (List.mem_append_right _ (List.mem_of_mem_filter hx))
  · intro opened todo hp
    rw [k1] at hp
    cases hp
    refine ⟨nofun, fun r hr => ?_⟩
    obtain ⟨n, d, -, rfl, -⟩ := mem_createRecs hr
    rfl
  · intro r hr
    rw [k1] at hr
    obtain ⟨n, d, -, rfl, -⟩ := mem_createRecs hr
    rfl
  · rw [k2]
    exact h.fine

theorem Inv.initRec (h : Inv s) {pMtpDevice : Option Handle} (hs : step s (.initRec pMtpDevice) = some s') :
    Inv s' := by
  simp only [MtpState.step] at hs
  split at hs
  · rename_i opened r todo hpc
    obtain ⟨hopened, htodo⟩ := h.new opened (r :: todo) hpc
    obtain ⟨hr, htodo⟩ := List.forall_mem_cons.1 htodo
    have hunheld := h.unheld
    have hsound := h.sound
    unfold recs at hsound
    rw [hpc] at hunheld hsound
    obtain ⟨hu₁, hu₂⟩ := List.forall_mem_append.1 hunheld
    obtain ⟨hu, hu₂⟩ := List.forall_mem_cons.1 hu₂
    -- the record first, and then the others
    have hmid : (s.deviceList ++ (opened ++ r :: todo)).Perm (r :: (s.deviceList ++ (opened ++ todo))) := by
      rw [← List.append_assoc, ← List.append_assoc]
      exact List.perm_middle
    split at hs
    · cases hs
      refine ⟨(hsound.perm hmid).free hu, h.ready, ?_, List.forall_mem_append.2 ⟨hu₁, hu₂⟩, h.fine⟩
      rintro o t ⟨⟩
      exact ⟨hopened, htodo⟩
    · rename_i pDevice
      split at hs
      · cases hs
      · rename_i hnew
        cases hs
        refine ⟨((hsound.perm hmid).init hr hnew).perm ?_, h.ready, ?_, ?_, h.fine⟩
        · show (_ :: (s.deviceList ++ (opened ++ todo))).Perm (s.deviceList ++ (opened ++ [_] ++ todo))
          rw [List.append_assoc opened, ← List.append_assoc s.deviceList, ← List.append_assoc s.deviceList]
          exact List.perm_middle.symm
        · rintro o t ⟨⟩
          refine ⟨List.forall_mem_append.2 ⟨hopened, List.forall_mem_singleton.2 ?_⟩, htodo⟩
          exact Option.some_ne_none pDevice
        · exact List.forall_mem_append.2 ⟨List.forall_mem_append.2 ⟨hu₁, List.forall_mem_singleton.2 hu⟩, hu₂⟩
  · cases hs

theorem Inv.step (h : Inv s) (hs : step s a = some s') : Inv s' := by
  cases a with
  | getMtpDevice szId => exact h.getMtpDevice hs
  | releaseMtpDevice pDevice => exact h.releaseMtpDevice hs
  | enumDevices pDevices =>
    obtain ⟨hpc, hs⟩ := Option.ite_none_right_eq_some.1 hs
    cases pDevices with
    | none =>
      cases hs
      exact ⟨h.sound, h.ready, h.new, h.unheld, h.fine⟩
    | some ds =>
      cases hs
      have h1 := h.processDevices hpc ds
      exact ⟨h1.sound, h1.ready, h1.new, h1.unheld, h1.fine⟩
  | initRec pMtpDevice => exact h.initRec hs
  | splice =>
    simp only [MtpState.step] at hs
    split at hs
    · rename_i opened hpc
      cases hs
      obtain ⟨hopened, -⟩ := h.new opened [] hpc
      have hsound := h.sound
      unfold recs at hsound
      rw [hpc] at hsound
      refine ⟨?_, List.forall_mem_append.2 ⟨h.ready, hopened⟩, nofun, nofun, h.fine⟩
      simpa [recs, MtpPc.newList] using hsound
    · cases hs

omit [DecidableEq Id] in
theorem inv_start : Inv (start : MtpState Id Handle) where
  sound := ⟨List.nodup_nil, nofun, List.nodup_nil, nofun, nofun, nofun, nofun⟩
  ready := nofun
  new := nofun
  unheld := nofun
  fine := rfl

theorem inv_reach (h : (machine Id Handle).Reach s) : Inv s :=
  Machine.Reach.invariant (by rintro s rfl; exact inv_start) (fun _ _ _ hi hs => hi.step hs) h

/-- **An MTP handle stays valid while it is held**, whatever is enumerated: each handle a caller has is that of exactly
one record of `_DeviceList`, which counts those that have it; no record is freed while it is counted, nor twice; and no
assertion fails. -/
theorem mtp_handles_valid (h : (machine Id Handle).Reach s) :
    (∀ pDevice ∈ s.held, ∃ r, s.deviceList.filter (·.pMtpDevice = some pDevice) = [r] ∧
      r.dwRefCnt = s.held.count pDevice) ∧
    (∀ r ∈ s.freed, r.dwRefCnt = 0) ∧ (s.freed.map MtpRec.pRec).Nodup ∧ s.failed = false := by
  have hi := inv_reach h
  refine ⟨fun pDevice hh => ?_, hi.sound.unused, ?_, hi.fine⟩
  · obtain ⟨r, hr, hd⟩ := hi.listed hh
    obtain ⟨l₁, l₂, he⟩ := List.append_of_mem hr
    have hcount := hi.sound.counts r (List.mem_append_left _ hr)
    rw [hd] at hcount
    have hmid : s.recs.Perm (r :: (l₁ ++ l₂ ++ s.pc.newList)) := by
      rw [recs, he]
      exact List.perm_middle.append_right _
    have hne : ∀ x ∈ l₁ ++ l₂, ¬ x.pMtpDevice = some pDevice :=
      fun x hx => (hi.sound.perm hmid).handle_ne hd x (List.mem_append_left _ hx)
    have hnil : ∀ l : List (MtpRec Id Handle), (∀ x ∈ l, ¬ x.pMtpDevice = some pDevice) →
        l.filter (·.pMtpDevice = some pDevice) = [] := by
      intro l hl
      rw [List.filter_eq_nil_iff]
      intro x hx
      simpa using hl x hx
    refine ⟨r, ?_, hcount⟩
    rw [he, List.filter_append, List.filter_cons_of_pos (by simpa using hd),
      hnil l₁ fun x hx => hne x (List.mem_append_left _ hx), hnil l₂ fun x hx => hne x (List.mem_append_right _ hx)]
    rfl
  · have hn := hi.sound.ptrs
    rw [List.map_append] at hn
    exact hn.of_append_right

/-- A device is unplugged while two callers have its handle, and plugged in again at another address. -/
def replugRun : List (MtpStep Nat Nat) := [.enumDevices (some [⟨⟨1, 2⟩, 7⟩]), .initRec (some 40), .splice,
  .getMtpDevice 7, .getMtpDevice 7, .enumDevices (some [⟨⟨1, 3⟩, 7⟩]), .releaseMtpDevice 40, .initRec (some 41),
  .splice]

theorem mtp_handles_valid_replug : ∃ s, (machine Nat Nat).run start replugRun = some s ∧ s.held = [40] ∧
    (∀ pDevice ∈ s.held, ∃ r, s.deviceList.filter (·.pMtpDevice = some pDevice) = [r] ∧
      r.dwRefCnt = s.held.count pDevice) ∧
    (∀ r ∈ s.freed, r.dwRefCnt = 0) ∧ (s.freed.map MtpRec.pRec).Nodup ∧ s.failed = false := by
  obtain ⟨s, hs, hh⟩ := Option.map_eq_some_iff.1
    (show ((machine Nat Nat).run start replugRun).map MtpState.held = some [40] by decide)
  exact ⟨s, hs, hh, mtp_handles_valid ((Machine.Reach.init rfl).run hs)⟩

end MtpState
end DevMgr
