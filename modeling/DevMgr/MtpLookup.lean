import DevMgr.MtpHandles
/-!
# MtpLookup — what `GetMtpDevice` finds after an enumeration

The records follow the bus as long as none has to outlive its device: `EnumDevices` returns early for an empty bus and
keeps every record, `ProcessDevices` keeps a record that is held at the end of the list where a lookup still finds it,
and a record that is kept for a device at its address keeps the serial it was made with.
-/
namespace DevMgr

open Machines Matching MtpDeviceMon

variable {Id Handle : Type}

/-- The record is that of the device where it is attached. -/
def MtpRec.Of (r : MtpRec Id Handle) (d : BusDevice Id) : Prop := r.pRawDevice = d.toRawDevice ∧ r.szId = d.serial

theorem isEqual_iff {a b : RawDevice} : isEqual a b = true ↔ a = b := by
  unfold isEqual
  rw [Bool.and_eq_true, beq_iff_eq, beq_iff_eq]
  constructor
  · rintro ⟨h1, h2⟩
    cases a
    cases b
    cases h1
    cases h2
    rfl
  · rintro rfl
    exact ⟨rfl, rfl⟩

theorem atAddress_iff {r : MtpRec Id Handle} {d : BusDevice Id} :
    atAddress r d = true ↔ r.pRawDevice = d.toRawDevice := isEqual_iff

/-- **The records of the devices that were listed**: one for each, at its address, and none to be removed. -/
structure Current (recs : List (MtpRec Id Handle)) (latest : List (BusDevice Id)) : Prop where
  addrs : (recs.map MtpRec.pRawDevice).Nodup
  live : ∀ r ∈ recs, r.bRemove = false ∧ ∃ d ∈ latest, r.Of d
  listed : ∀ d ∈ latest, ∃ r ∈ recs, r.Of d

namespace Current

variable {recs recs' : List (MtpRec Id Handle)} {latest : List (BusDevice Id)} {r r' : MtpRec Id Handle}

theorem perm (h : Current recs latest) (hp : recs.Perm recs') : Current recs' latest := by
  have hm : ∀ r, r ∈ recs' ↔ r ∈ recs := fun r => hp.mem_iff.symm
  refine ⟨(hp.map MtpRec.pRawDevice).nodup_iff.1 h.addrs, fun r hr => h.live r ((hm r).1 hr), fun d hd => ?_⟩
  obtain ⟨r, hr, ho⟩ := h.listed d hd
  exact ⟨r, (hm r).2 hr, ho⟩

/-- A change of a record's count or handle. -/
theorem change (h : Current (r :: recs) latest) (h1 : r'.pRawDevice = r.pRawDevice) (h2 : r'.szId = r.szId)
    (h3 : r'.bRemove = r.bRemove) : Current (r' :: recs) latest := by
  have hof : ∀ d, r'.Of d ↔ r.Of d := fun d => by rw [MtpRec.Of, MtpRec.Of, h1, h2]
  obtain ⟨hr, e, he, hoe⟩ := h.live r List.mem_cons_self
  constructor
  · rw [List.map_cons, h1, ← List.map_cons]
    exact h.addrs
  · exact List.forall_mem_cons.2 ⟨⟨h3.trans hr, e, he, (hof e).2 hoe⟩,
      fun x hx => h.live x (List.mem_cons_of_mem r hx)⟩
  · intro d hd
    obtain ⟨x, hx, ho⟩ := h.listed d hd
    rcases List.mem_cons.1 hx with he | hx
    · rw [he] at ho
      exact ⟨r', List.mem_cons_self, (hof d).2 ho⟩
    · exact ⟨x, List.mem_cons_of_mem r' hx, ho⟩

end Current

theorem map_createRecs : ∀ (ds : List (BusDevice Id)) (created : Nat),
    (createRecs created ds : List (MtpRec Id Handle)).map MtpRec.pRawDevice = ds.map BusDevice.toRawDevice
  | [], _ => rfl
  | d :: ds, created => by
    rw [createRecs, List.map_cons, List.map_cons, map_createRecs ds]
    rfl

theorem createRecs_mem : ∀ {ds : List (BusDevice Id)} {d : BusDevice Id} (created : Nat), d ∈ ds →
    ∃ n, (createRec n d : MtpRec Id Handle) ∈ createRecs created ds
  | e :: ds, d, created, h => by
    rcases List.mem_cons.1 h with rfl | h
    · exact ⟨created, List.mem_cons_self⟩
    · obtain ⟨n, hn⟩ := createRecs_mem (created + 1) h
      exact ⟨n, List.mem_cons_of_mem _ hn⟩

/-- The records kept and the devices that are new are at the addresses of the enumeration, once each. -/
theorem addrs_assign (l : List (MtpRec Id Handle)) (ds : List (BusDevice Id)) :
    ((kept l ds).map MtpRec.pRawDevice ++ (unknown l ds).map BusDevice.toRawDevice).Perm
      (ds.map BusDevice.toRawDevice) := by
  refine assign_induct atAddress (fun _ ds as _ => ((as.filterMap Prod.snd).map MtpRec.pRawDevice ++
    ((as.filter (·.2.isNone)).map Prod.fst).map BusDevice.toRawDevice).Perm (ds.map BusDevice.toRawDevice))
    ?_ ?_ ?_ ds l
  · exact fun _ => .nil
  · intro old d ds _ ih
    rw [List.filterMap_cons_none rfl, List.filter_cons_of_pos (by rfl), List.map_cons, List.map_cons]
    exact List.perm_middle.trans (ih.cons _)
  · intro old r rest d ds h ih
    have hr : r.pRawDevice = d.toRawDevice := atAddress_iff.1 (takeFirst_some h).1
    rw [List.filter_cons_of_neg (by simp), List.map_cons, ← hr]
    exact ih.cons _

theorem mem_kept {l : List (MtpRec Id Handle)} {ds : List (BusDevice Id)} {r : MtpRec Id Handle} (h : r ∈ kept l ds) :
    ∃ d ∈ ds, r.pRawDevice = d.toRawDevice := by
  obtain ⟨⟨d, o⟩, hm, rfl⟩ := List.mem_filterMap.1 h
  refine ⟨d, ?_, atAddress_iff.1 (assign_fits hm)⟩
  rw [← assign_items atAddress ds l]
  exact List.mem_map.2 ⟨_, hm, rfl⟩

theorem mem_unknown {l : List (MtpRec Id Handle)} {ds : List (BusDevice Id)} {d : BusDevice Id}
    (h : d ∈ unknown l ds) : d ∈ ds := by
  obtain ⟨x, hx, rfl⟩ := List.mem_map.1 h
  rw [← assign_items atAddress ds l]
  exact List.mem_map.2 ⟨x, List.mem_of_mem_filter hx, rfl⟩

/-- A listed device has its record kept, or is new. -/
theorem kept_or_unknown {l : List (MtpRec Id Handle)} {ds : List (BusDevice Id)} {d : BusDevice Id} (h : d ∈ ds) :
    (∃ r ∈ kept l ds, r.pRawDevice = d.toRawDevice) ∨ d ∈ unknown l ds := by
  rw [← assign_items atAddress ds l] at h
  obtain ⟨⟨d', o⟩, hm, rfl⟩ := List.mem_map.1 h
  cases o with
  | none => exact .inr (List.mem_map.2 ⟨_, List.mem_filter.2 ⟨hm, rfl⟩, rfl⟩)
  | some r => exact .inl ⟨r, List.mem_filterMap.2 ⟨_, hm, rfl⟩, atAddress_iff.1 (assign_fits hm)⟩

namespace MtpState

variable [DecidableEq Id] [DecidableEq Handle] {s s' : MtpState Id Handle} {a : MtpStep Id Handle}

/-- **What libmtp does**: the devices on the bus are at different addresses, and opening one succeeds.  An empty bus is
an enumeration that fails. -/
def Libmtp : MtpStep Id Handle → Prop
  | .enumDevices (some ds) => (ds.map BusDevice.toRawDevice).Nodup
  | .initRec none => False
  | _ => True

/-- **An enumeration that no record outlives**: no record is left when the bus is empty, every record that is held is at
the address of a device on the bus, and every record at the address of one has its serial. -/
def NoneOutlives (s : MtpState Id Handle) : MtpStep Id Handle → Prop
  | .enumDevices none => s.deviceList = []
  | .enumDevices (some ds) => (∀ r ∈ s.deviceList, r.dwRefCnt ≠ 0 → ∃ d ∈ ds, r.pRawDevice = d.toRawDevice) ∧
      ∀ r ∈ s.deviceList, ∀ d ∈ ds, r.pRawDevice = d.toRawDevice → r.szId = d.serial
  | _ => True

/-- **Lookups follow the enumeration.** -/
structure Follows (s : MtpState Id Handle) : Prop where
  found : ∀ szId, (∃ r, s.lookup szId = some r) ↔ ∃ d ∈ s.latest, d.serial = szId
  current : ∀ szId r, s.lookup szId = some r → r.pMtpDevice ≠ none ∧ r.bRemove = false ∧
    ∃ d ∈ s.latest, d.serial = szId ∧ r.pRawDevice = d.toRawDevice
  stays : ∀ pDevice s', step s (.releaseMtpDevice pDevice) = some s' → ∀ r ∈ s.deviceList,
    r.pMtpDevice = some pDevice → (∃ d ∈ s.latest, r.Of d) → ∃ r' ∈ s'.deviceList, r'.pRec = r.pRec

omit [DecidableEq Handle] in
theorem lookup_some {szId : Id} {r : MtpRec Id Handle} (h : s.lookup szId = some r) :
    r ∈ s.deviceList ∧ r.szId = szId := by
  unfold lookup at h
  refine ⟨List.mem_of_find?_eq_some h, ?_⟩
  have := List.find?_some h
  exact of_decide_eq_true this

end MtpState

open MtpState

variable [DecidableEq Id] [DecidableEq Handle] {s s' : MtpState Id Handle} {a : MtpStep Id Handle}

omit [DecidableEq Id] in
theorem Current.setRec (h : Current s.recs s.latest) (hi : Inv s) {r r' : MtpRec Id Handle} (hm : r ∈ s.deviceList)
    (h0 : r'.pRec = r.pRec) (h1 : r'.pRawDevice = r.pRawDevice) (h2 : r'.szId = r.szId) (h3 : r'.bRemove = r.bRemove) :
    Current (MtpState.setRec s.deviceList r' ++ s.pc.newList) s.latest := by
  obtain ⟨rest, k1, k2⟩ := setRec_perm (ptrs_deviceList hi) hm h0
  have h' : Current (r :: (rest ++ s.pc.newList)) s.latest := h.perm (k1.append_right s.pc.newList)
  exact (h'.change h1 h2 h3).perm (k2.append_right s.pc.newList).symm

omit [DecidableEq Id] in
/-- **An enumeration leaves the records of the devices it lists.** -/
theorem Current.enum (h : Current s.recs s.latest) (hpc : s.pc = .idle) {ds : List (BusDevice Id)}
    (hl : Libmtp (.enumDevices (some ds) : MtpStep Id Handle)) (ho : NoneOutlives s (.enumDevices (some ds))) :
    Current (s.processDevices ds).recs ds := by
  have hrecs : s.recs = s.deviceList := by rw [recs, hpc]; exact List.append_nil _
  rw [hrecs] at h
  obtain ⟨hheld, hserial⟩ := ho
  have hperm : s.deviceList.Perm (kept s.deviceList ds ++ unlisted s.deviceList ds) :=
    assign_perm atAddress ds s.deviceList
  -- what is left of `DupList` is at no address of the bus, so nobody holds it
  have hleft : (unlisted s.deviceList ds).filter (·.dwRefCnt ≠ 0) = [] := by
    rw [List.filter_eq_nil_iff]
    intro r hr
    rw [decide_eq_true_iff]
    intro hc
    obtain ⟨d, hd, he⟩ := hheld r (hperm.mem_iff.2 (List.mem_append_right _ hr)) hc
    have hno : atAddress r d = false := by
      refine assign_left (fun d _ => (List.pairwise_map.1 h.addrs).imp fun hne hboth => hne ?_) r hr d hd
      exact (atAddress_iff.1 hboth.1).trans (atAddress_iff.1 hboth.2).symm
    rw [atAddress_iff.2 he] at hno
    cases hno
  have hnew : (s.processDevices ds).recs = kept s.deviceList ds ++ createRecs s.created (unknown s.deviceList ds) := by
    rw [recs, processDevices_eq, dropDups_deviceList, (dropDups_keeps _ _).1, hleft, List.map_nil, List.append_nil]
    rfl
  rw [hnew]
  constructor
  · rw [List.map_append, map_createRecs]
    exact (addrs_assign s.deviceList ds).nodup_iff.2 hl
  · intro r hr
    rcases List.mem_append.1 hr with hr | hr
    · have hr' := hperm.mem_iff.2 (List.mem_append_left _ hr)
      obtain ⟨d, hd, he⟩ := mem_kept hr
      exact ⟨(h.live r hr').1, d, hd, he, hserial r hr' d hd he⟩
    · obtain ⟨n, d, hd, rfl, -⟩ := mem_createRecs hr
      exact ⟨rfl, d, mem_unknown hd, rfl, rfl⟩
  · intro d hd
    rcases kept_or_unknown hd with ⟨r, hr, he⟩ | hu
    · exact ⟨r, List.mem_append_left _ hr, he, hserial r (hperm.mem_iff.2 (List.mem_append_left _ hr)) d hd he⟩
    · obtain ⟨n, hn⟩ := createRecs_mem s.created hu
      exact ⟨_, List.mem_append_right _ hn, rfl, rfl⟩

theorem Current.step (h : Current s.recs s.latest) (hi : Inv s) (hl : Libmtp a) (ho : NoneOutlives s a)
    (hs : MtpState.step s a = some s') : Current s'.recs s'.latest := by
  cases a with
  | getMtpDevice szId =>
    simp only [MtpState.step] at hs
    split at hs
    · cases hs
      exact h
    · rename_i r hr
      split at hs
      · cases hs
        exact h
      · cases hs
        exact h.setRec hi (lookup_some hr).1 rfl rfl rfl rfl
  | releaseMtpDevice pDevice =>
    simp only [MtpState.step] at hs
    split at hs
    · split at hs
      · cases hs
        exact h
      · rename_i r rest hr
        have hm : r ∈ s.deviceList := (takeFirst_perm hr).mem_iff.2 List.mem_cons_self
        rw [if_neg (by rw [(h.live r (List.mem_append_left _ hm)).1]; simp)] at hs
        cases hs
        exact h.setRec hi hm rfl rfl rfl rfl
    · cases hs
  | enumDevices pDevices =>
    obtain ⟨hpc, hs⟩ := Option.ite_none_right_eq_some.1 hs
    cases pDevices with
    | none =>
      cases hs
      have hnil : s.deviceList = [] := ho
      rw [recs, hnil, hpc]
      exact ⟨List.nodup_nil, fun r hr => absurd hr List.not_mem_nil, fun d hd => absurd hd List.not_mem_nil⟩
    | some ds =>
      cases hs
      exact h.enum hpc hl ho
  | initRec pMtpDevice =>
    simp only [MtpState.step] at hs
    split at hs
    · rename_i opened r todo hpc
      cases pMtpDevice with
      | none => exact hl.elim
      | some pDevice =>
        dsimp only at hs
        split at hs
        · cases hs
        · cases hs
          rw [recs, hpc] at h
          have hmid : (s.deviceList ++ (opened ++ r :: todo)).Perm (r :: (s.deviceList ++ (opened ++ todo))) := by
            rw [← List.append_assoc, ← List.append_assoc]
            exact List.perm_middle
          have hinit : Current ({ r with pMtpDevice := some pDevice } :: (s.deviceList ++ (opened ++ todo))) s.latest :=
            (h.perm hmid).change rfl rfl rfl
          refine hinit.perm ?_
          show (_ :: (s.deviceList ++ (opened ++ todo))).Perm (s.deviceList ++ (opened ++ [_] ++ todo))
          rw [List.append_assoc opened, ← List.append_assoc s.deviceList, ← List.append_assoc s.deviceList]
          exact List.perm_middle.symm
    · cases hs
  | splice =>
    simp only [MtpState.step] at hs
    split at hs
    · rename_i opened hpc
      cases hs
      rw [recs, hpc] at h
      simpa [recs, MtpPc.newList] using h
    · cases hs

/-- **Lookups in the records of the devices that were listed follow the enumeration.** -/
theorem Current.follows (h : Current s.recs s.latest) (hi : Inv s) (hpc : s.pc = .idle) : Follows s := by
  have hrecs : s.recs = s.deviceList := by rw [recs, hpc]; exact List.append_nil _
  rw [hrecs] at h
  constructor
  · intro szId
    constructor
    · rintro ⟨r, hr⟩
      obtain ⟨hm, hid⟩ := lookup_some hr
      obtain ⟨-, d, hd, ho⟩ := h.live r hm
      exact ⟨d, hd, ho.2.symm.trans hid⟩
    · rintro ⟨d, hd, rfl⟩
      obtain ⟨r, hr, ho⟩ := h.listed d hd
      exact Option.isSome_iff_exists.1 (List.find?_isSome.2 ⟨r, hr, decide_eq_true ho.2⟩)
  · intro szId r hr
    obtain ⟨hm, hid⟩ := lookup_some hr
    obtain ⟨h1, d, hd, ho⟩ := h.live r hm
    exact ⟨hi.ready r hm, h1, d, hd, ho.2.symm.trans hid, ho.1⟩
  · intro pDevice s' hs r hr _ _
    simp only [MtpState.step] at hs
    split at hs
    · split at hs
      · cases hs
        exact ⟨r, hr, rfl⟩
      · rename_i x rest hx
        have hm : x ∈ s.deviceList := (takeFirst_perm hx).mem_iff.2 List.mem_cons_self
        rw [if_neg (by rw [(h.live x hm).1]; simp)] at hs
        cases hs
        refine ⟨_, List.mem_map.2 ⟨r, hr, rfl⟩, ?_⟩
        split
        · exact Eq.symm ‹_›
        · rfl
    · cases hs

/-- **When lookups follow the enumeration**: in every history whose enumerations no record outlives, after each of them
and whatever is looked up and released then. -/
theorem MtpState.mtp_lookup_follows (h : (machine Id Handle).ReachWhen (fun s a => Libmtp a ∧ NoneOutlives s a) s)
    (hpc : s.pc = .idle) : Follows s := by
  have hc : Current s.recs s.latest ∧ Inv s := by
    refine Machine.ReachWhen.invariant (I := fun s => Current s.recs s.latest ∧ Inv s) ?_ ?_ h
    · rintro s rfl
      exact ⟨⟨List.nodup_nil, nofun, nofun⟩, inv_start⟩
    · rintro s a s' ⟨hc, hi⟩ ⟨hl, ho⟩ hs
      exact ⟨hc.step hi hl ho hs, hi.step hs⟩
  exact hc.1.follows hc.2 hpc

namespace MtpState

instance : DecidablePred (Libmtp : MtpStep Id Handle → Prop)
  | .enumDevices (some ds) => inferInstanceAs (Decidable (ds.map BusDevice.toRawDevice).Nodup)
  | .initRec none => isFalse id
  | .enumDevices none | .initRec (some _) | .getMtpDevice _ | .releaseMtpDevice _ | .splice => isTrue trivial

instance (s : MtpState Id Handle) : DecidablePred (NoneOutlives s)
  | .enumDevices none => inferInstanceAs (Decidable (s.deviceList = []))
  | .enumDevices (some ds) => inferInstanceAs (Decidable (
      (∀ r ∈ s.deviceList, r.dwRefCnt ≠ 0 → ∃ d ∈ ds, r.pRawDevice = d.toRawDevice) ∧
      ∀ r ∈ s.deviceList, ∀ d ∈ ds, r.pRawDevice = d.toRawDevice → r.szId = d.serial))
  | .initRec _ | .getMtpDevice _ | .releaseMtpDevice _ | .splice => isTrue trivial

/-- Two devices are plugged in, one after the other, and the first is unplugged when its handle is released. -/
def twoDevices : List (MtpStep Nat Nat) := [.enumDevices (some [⟨⟨1, 2⟩, 7⟩]), .initRec (some 40), .splice,
  .getMtpDevice 7, .enumDevices (some [⟨⟨1, 5⟩, 8⟩, ⟨⟨1, 2⟩, 7⟩]), .initRec (some 41), .splice, .releaseMtpDevice 40,
  .enumDevices (some [⟨⟨1, 5⟩, 8⟩]), .splice]

theorem mtp_lookup_follows_twoDevices : ∃ s, (machine Nat Nat).runWhen (fun s a => Libmtp a ∧ NoneOutlives s a) start
    twoDevices = some s ∧ Follows s := by
  obtain ⟨s, hs, hpc⟩ := Option.map_eq_some_iff.1
    (show ((machine Nat Nat).runWhen (fun s a => Libmtp a ∧ NoneOutlives s a) start twoDevices).map MtpState.pc =
      some .idle by decide)
  exact ⟨s, hs, mtp_lookup_follows (Machine.ReachWhen.runWhen (.init rfl) hs) hpc⟩

/-- **The lookup that does not follow**: the only device is unplugged and is found all the same, and so is the record at
its old address of one that was plugged in again while it was held. -/
theorem mtp_lookup_stale :
    (∃ s, (machine Nat Nat).run start [.enumDevices (some [⟨⟨1, 2⟩, 7⟩]), .initRec (some 40), .splice,
      .enumDevices none] = some s ∧ s.pc = .idle ∧ ¬ Follows s) ∧
    ∃ s r, (machine Nat Nat).run start replugRun = some s ∧ s.pc = .idle ∧ s.lookup 7 = some r ∧ r.bRemove = true ∧
      ¬ Follows s := by
  constructor
  · obtain ⟨s, hs, h⟩ := Option.map_eq_some_iff.1
      (show ((machine Nat Nat).run start [.enumDevices (some [⟨⟨1, 2⟩, 7⟩]), .initRec (some 40), .splice,
        .enumDevices none]).map (fun s => (s.pc, (s.lookup 7).isSome, s.latest)) = some (.idle, true, []) by decide)
    obtain ⟨hpc, hsome, hlatest⟩ : s.pc = .idle ∧ (s.lookup 7).isSome = true ∧ s.latest = [] := by simpa using h
    refine ⟨s, hs, hpc, fun hf => ?_⟩
    obtain ⟨d, hd, -⟩ := (hf.found 7).1 (Option.isSome_iff_exists.1 hsome)
    rw [hlatest] at hd
    cases hd
  · obtain ⟨s, hs, h⟩ := Option.map_eq_some_iff.1
      (show ((machine Nat Nat).run start replugRun).map (fun s => (s.pc, (s.lookup 7).map MtpRec.bRemove)) =
        some (.idle, some true) by decide)
    obtain ⟨hpc, hr⟩ : s.pc = .idle ∧ (s.lookup 7).map MtpRec.bRemove = some true := by simpa using h
    obtain ⟨r, hl, hb⟩ := Option.map_eq_some_iff.1 hr
    refine ⟨s, r, hs, hpc, hl, hb, fun hf => ?_⟩
    have := (hf.current 7 r hl).2.1
    rw [hb] at this
    cases this

end MtpState
end DevMgr
