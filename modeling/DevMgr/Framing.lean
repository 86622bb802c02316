import Mathlib.Data.List.TakeDrop
/-!
# Framing — streams of frames with a fixed header that announces the body

A `Format` says how long a header is, which headers are accepted and how long a body each announces.  `parse` reads a
whole stream: the complete frames, the unread rest, and whether it stopped at a header that is not accepted.  A stream
may arrive in pieces: reading the rest of a first piece together with a second one continues the reading of the first
(`parse_append`).  `announced` are the body lengths of the accepted headers the reading comes to.  A stream is `Framed`
when it is whole frames and then a beginning of one.  Nothing here names a program.
-/
namespace Framing

universe u

structure Format (β : Type u) where
  hdrLen : Nat
  hdrPos : 0 < hdrLen
  valid : List β → Bool
  bodyLen : List β → Nat

structure Outcome (β : Type u) where
  frames : List (List β × List β)
  rest : List β
  bad : Bool

variable {β : Type u} (F : Format β)

namespace Format

def hdr (s : List β) : List β := s.take F.hdrLen

/-- The length of the frame that starts a stream with a whole header. -/
def frameLen (s : List β) : Nat := F.hdrLen + F.bodyLen (F.hdr s)

def parse (s : List β) : Outcome β :=
  if s.length < F.hdrLen then ⟨[], s, false⟩
  else if F.valid (F.hdr s) = false then ⟨[], s, true⟩
  else if s.length < F.frameLen s then ⟨[], s, false⟩
  else
    let o := parse (s.drop (F.frameLen s))
    ⟨(F.hdr s, (s.drop F.hdrLen).take (F.bodyLen (F.hdr s))) :: o.frames, o.rest, o.bad⟩
termination_by s.length
decreasing_by
  have := F.hdrPos
  simp only [List.length_drop, frameLen]
  omega

/-- The body lengths of the accepted headers the reading comes to: of the whole frames, and of one begun at the end. -/
def announced (s : List β) : List Nat :=
  (F.parse s).frames.map (fun f => F.bodyLen f.1) ++
    if F.hdrLen ≤ (F.parse s).rest.length ∧ F.valid (F.hdr (F.parse s).rest) = true
    then [F.bodyLen (F.hdr (F.parse s).rest)] else []

/-- A stream in which the reading takes no frame and stops at no header. -/
def Incomplete (s : List β) : Prop := F.parse s = ⟨[], s, false⟩

/-- A whole frame. -/
def IsFrame (w : List β) : Prop := F.hdrLen ≤ w.length ∧ F.valid (F.hdr w) = true ∧ w.length = F.frameLen w

/-- Whole frames, and then at most a beginning of one more. -/
def Framed (s : List β) : Prop :=
  ∃ (ws : List (List β)) (t w : List β), s = ws.flatten ++ t ∧ (∀ x ∈ ws, F.IsFrame x) ∧ F.IsFrame w ∧ t <+: w

variable {F}

theorem parse_short {s : List β} (h : s.length < F.hdrLen) : F.parse s = ⟨[], s, false⟩ := by
  rw [parse, if_pos h]

theorem parse_nil : F.parse [] = ⟨[], [], false⟩ := parse_short F.hdrPos

theorem parse_bad {s : List β} (h : F.hdrLen ≤ s.length) (hv : F.valid (F.hdr s) = false) :
    F.parse s = ⟨[], s, true⟩ := by
  rw [parse, if_neg (by omega), if_pos hv]

theorem parse_begun {s : List β} (h : F.hdrLen ≤ s.length) (hv : F.valid (F.hdr s) = true)
    (hp : s.length < F.frameLen s) : F.parse s = ⟨[], s, false⟩ := by
  rw [parse, if_neg (by omega), if_neg (by simp [hv]), if_pos hp]

theorem parse_frame {s : List β} (hv : F.valid (F.hdr s) = true) (hp : F.frameLen s ≤ s.length) :
    F.parse s = ⟨(F.hdr s, (s.drop F.hdrLen).take (F.bodyLen (F.hdr s))) :: (F.parse (s.drop (F.frameLen s))).frames,
      (F.parse (s.drop (F.frameLen s))).rest, (F.parse (s.drop (F.frameLen s))).bad⟩ := by
  have h : ¬ s.length < F.hdrLen := by unfold frameLen at hp; omega
  conv => lhs; rw [parse]
  rw [if_neg h, if_neg (by simp [hv]), if_neg (by omega)]

theorem hdr_append {s : List β} (t : List β) (h : F.hdrLen ≤ s.length) : F.hdr (s ++ t) = F.hdr s :=
  List.take_append_of_le_length h

theorem frameLen_append {s : List β} (t : List β) (h : F.hdrLen ≤ s.length) : F.frameLen (s ++ t) = F.frameLen s := by
  unfold frameLen; rw [hdr_append t h]

/-- The ways a stream can begin. -/
theorem cases_stream (F : Format β) (s : List β) :
    s.length < F.hdrLen ∨ (F.hdrLen ≤ s.length ∧ F.valid (F.hdr s) = false) ∨
    (F.hdrLen ≤ s.length ∧ F.valid (F.hdr s) = true ∧ s.length < F.frameLen s) ∨
    (F.hdrLen ≤ s.length ∧ F.valid (F.hdr s) = true ∧ F.frameLen s ≤ s.length) := by
  by_cases h : s.length < F.hdrLen
  · exact .inl h
  · cases hv : F.valid (F.hdr s) with
    | false => exact .inr (.inl ⟨by omega, rfl⟩)
    | true =>
      by_cases hp : s.length < F.frameLen s
      · exact .inr (.inr (.inl ⟨by omega, rfl, hp⟩))
      · exact .inr (.inr (.inr ⟨by omega, rfl, by omega⟩))

/-- **Reading goes on where it stopped**: unless a first piece ended the reading at a header that is not accepted, its
rest and the next piece are read as the next piece is after it. -/
theorem parse_append (F : Format β) (s t : List β) (hb : (F.parse s).bad = false) :
    F.parse (s ++ t) = ⟨(F.parse s).frames ++ (F.parse ((F.parse s).rest ++ t)).frames,
      (F.parse ((F.parse s).rest ++ t)).rest, (F.parse ((F.parse s).rest ++ t)).bad⟩ := by
  rcases F.cases_stream s with h | ⟨h, hv⟩ | ⟨h, hv, hp⟩ | ⟨h, hv, hp⟩
  · rw [parse_short h]; rfl
  · rw [parse_bad h hv] at hb; cases hb
  · rw [parse_begun h hv hp]; rfl
  · have hrec := parse_append F (s.drop (F.frameLen s)) t
    rw [parse_frame hv hp] at hb ⊢
    specialize hrec hb
    have hv' : F.valid (F.hdr (s ++ t)) = true := by rw [hdr_append t h, hv]
    have hl := frameLen_append (F := F) t h
    rw [parse_frame hv' (by rw [hl, List.length_append]; omega), hl, hdr_append t h,
      List.drop_append_of_le_length hp, hrec, List.drop_append_of_le_length h,
      List.take_append_of_le_length (by rw [List.length_drop]; unfold frameLen at hp; omega)]
    rfl
termination_by s.length
decreasing_by
  have := F.hdrPos
  simp only [List.length_drop, frameLen]
  omega

/-- **After a header that is not accepted nothing more is read.** -/
theorem parse_append_bad (F : Format β) (s t : List β) (hb : (F.parse s).bad = true) :
    F.parse (s ++ t) = ⟨(F.parse s).frames, (F.parse s).rest ++ t, true⟩ := by
  rcases F.cases_stream s with h | ⟨h, hv⟩ | ⟨h, hv, hp⟩ | ⟨h, hv, hp⟩
  · rw [parse_short h] at hb; cases hb
  · rw [parse_bad h hv, parse_bad (by rw [List.length_append]; omega) (by rw [hdr_append t h, hv])]
  · rw [parse_begun h hv hp] at hb; cases hb
  · have hrec := parse_append_bad F (s.drop (F.frameLen s)) t
    rw [parse_frame hv hp] at hb ⊢
    specialize hrec hb
    have hv' : F.valid (F.hdr (s ++ t)) = true := by rw [hdr_append t h, hv]
    have hl := frameLen_append (F := F) t h
    rw [parse_frame hv' (by rw [hl, List.length_append]; omega), hl, hdr_append t h,
      List.drop_append_of_le_length hp, hrec, List.drop_append_of_le_length h,
      List.take_append_of_le_length (by rw [List.length_drop]; unfold frameLen at hp; omega)]
termination_by s.length
decreasing_by
  have := F.hdrPos
  simp only [List.length_drop, frameLen]
  omega

/-- **A whole frame in front of a stream is read first.** -/
theorem parse_isFrame {w : List β} (hw : F.IsFrame w) (t : List β) :
    F.parse (w ++ t) = ⟨(F.hdr w, w.drop F.hdrLen) :: (F.parse t).frames, (F.parse t).rest, (F.parse t).bad⟩ := by
  obtain ⟨h, hv, hl⟩ := hw
  have hf := frameLen_append (F := F) t h
  have hd : (w ++ t).drop (F.frameLen w) = t := by rw [← hl]; exact List.drop_left
  rw [parse_frame (by rw [hdr_append t h, hv]) (by rw [hf, List.length_append]; omega), hf, hd, hdr_append t h,
    List.drop_append_of_le_length h,
    List.take_left' (by rw [List.length_drop]; unfold frameLen at hl; omega)]

/-- **Whole frames are read as they were put together**, and nothing is left. -/
theorem parse_flatten : ∀ (ws : List (List β)), (∀ w ∈ ws, F.IsFrame w) →
    F.parse ws.flatten = ⟨ws.map fun w => (F.hdr w, w.drop F.hdrLen), [], false⟩
  | [], _ => parse_nil
  | w :: ws, h => by
    rw [List.flatten_cons, parse_isFrame (h w List.mem_cons_self),
      parse_flatten ws fun x hx => h x (List.mem_cons_of_mem w hx)]
    rfl

/-- **The rest of a reading is incomplete**, unless the reading stopped at a header. -/
theorem incomplete_rest (F : Format β) (s : List β) (hb : (F.parse s).bad = false) : F.Incomplete (F.parse s).rest := by
  have h := parse_append F s [] hb
  rw [List.append_nil, List.append_nil] at h
  have hf := congrArg Outcome.frames h
  have hr := congrArg Outcome.rest h
  have hbad := congrArg Outcome.bad h
  simp only [List.self_eq_append_right] at hf
  unfold Incomplete
  cases ho : F.parse (F.parse s).rest with
  | mk fs r b =>
    rw [ho] at hf hr hbad
    simp only at hf hr hbad
    rw [hf, ← hr, ← hbad, hb]

theorem incomplete_of_lt {s : List β} (h : s.length < F.hdrLen) : F.Incomplete s := parse_short h

theorem incomplete_iff {s : List β} :
    F.Incomplete s ↔ s.length < F.hdrLen ∨ (F.valid (F.hdr s) = true ∧ s.length < F.frameLen s) := by
  unfold Incomplete
  rcases F.cases_stream s with h | ⟨h, hv⟩ | ⟨h, hv, hp⟩ | ⟨h, hv, hp⟩
  · simp [parse_short h, h]
  · simp [parse_bad h hv, hv]; omega
  · simp [parse_begun h hv hp, hv, hp]
  · rw [parse_frame hv hp]
    simp [hv]
    omega

theorem bad_rest (F : Format β) (s : List β) (hb : (F.parse s).bad = true) :
    F.hdrLen ≤ (F.parse s).rest.length ∧ F.valid (F.hdr (F.parse s).rest) = false := by
  rcases F.cases_stream s with h | ⟨h, hv⟩ | ⟨h, hv, hp⟩ | ⟨h, hv, hp⟩
  · rw [parse_short h] at hb; cases hb
  · rw [parse_bad h hv]; exact ⟨h, hv⟩
  · rw [parse_begun h hv hp] at hb; cases hb
  · rw [parse_frame hv hp] at hb ⊢
    exact bad_rest F (s.drop (F.frameLen s)) hb
termination_by s.length
decreasing_by
  have := F.hdrPos
  simp only [List.length_drop, frameLen]
  omega

/-- **A framed stream begins with an accepted header.** -/
theorem Framed.valid_hdr {s : List β} (h : F.Framed s) (hl : F.hdrLen ≤ s.length) : F.valid (F.hdr s) = true := by
  obtain ⟨ws, t, w, rfl, hws, hw, ht⟩ := h
  cases ws with
  | nil =>
    obtain ⟨r, rfl⟩ := ht
    rw [List.flatten_nil, List.nil_append] at hl ⊢
    rw [← hdr_append r hl]
    exact hw.2.1
  | cons w' ws =>
    obtain ⟨h1, h2, -⟩ := hws w' List.mem_cons_self
    rw [List.flatten_cons, List.append_assoc, hdr_append _ h1]
    exact h2

theorem announced_bad (F : Format β) (s : List β) (hb : (F.parse s).bad = true) :
    F.announced s = (F.parse s).frames.map fun f => F.bodyLen f.1 := by
  unfold announced
  rw [if_neg (by simp [(bad_rest F s hb).2]), List.append_nil]

theorem announced_append (F : Format β) (s t : List β) (hb : (F.parse s).bad = false) :
    F.announced (s ++ t) = (F.parse s).frames.map (fun f => F.bodyLen f.1) ++ F.announced ((F.parse s).rest ++ t) := by
  conv => lhs; unfold announced
  rw [parse_append F s t hb, List.map_append, List.append_assoc]
  rfl

theorem announced_frame {s : List β} (hv : F.valid (F.hdr s) = true) (hp : F.frameLen s ≤ s.length) :
    F.announced s = F.bodyLen (F.hdr s) :: F.announced (s.drop (F.frameLen s)) := by
  conv => lhs; unfold announced
  rw [parse_frame hv hp]
  rfl

/-- **A header that starts the stream is announced first.** -/
theorem announced_head {s : List β} (h : F.hdrLen ≤ s.length) (hv : F.valid (F.hdr s) = true) :
    ∃ ns, F.announced s = F.bodyLen (F.hdr s) :: ns := by
  by_cases hp : s.length < F.frameLen s
  · refine ⟨[], ?_⟩
    unfold announced
    rw [parse_begun h hv hp, if_pos ⟨h, hv⟩]
    rfl
  · exact ⟨_, announced_frame hv (by omega)⟩

/-- **What a first piece announces, the whole stream announces first.** -/
theorem announced_prefix (F : Format β) (s t : List β) : F.announced s <+: F.announced (s ++ t) := by
  cases hb : (F.parse s).bad with
  | true =>
    have he : F.announced s = F.announced (s ++ t) := by
      rw [announced_bad F s hb, announced_bad F (s ++ t) (by rw [parse_append_bad F s t hb]), parse_append_bad F s t hb]
    exact he ▸ List.prefix_rfl
  | false =>
    rw [announced_append F s t hb]
    conv => lhs; unfold announced
    refine List.prefix_append_right_inj _ |>.2 ?_
    split
    · rename_i h
      obtain ⟨ns, hns⟩ := announced_head (F := F) (s := (F.parse s).rest ++ t)
        (by rw [List.length_append]; omega) (by rw [hdr_append t h.1, h.2])
      rw [hns, hdr_append t h.1]
      exact ⟨ns, rfl⟩
    · exact List.nil_prefix

/-! ### A framed stream, read up to some byte -/

/-- **A frame that is not whole yet is incomplete.** -/
theorem incomplete_of_begun {w t : List β} (hw : F.IsFrame w) (ht : t <+: w) (hlt : t.length < w.length) :
    F.Incomplete t := by
  obtain ⟨r, rfl⟩ := ht
  rw [incomplete_iff]
  by_cases hl : t.length < F.hdrLen
  · exact .inl hl
  · have hl' : F.hdrLen ≤ t.length := by omega
    obtain ⟨-, hv, he⟩ := hw
    rw [hdr_append r hl'] at hv
    rw [frameLen_append r hl'] at he
    exact .inr ⟨hv, by omega⟩

theorem parse_framed {ws : List (List β)} {t : List β} (hws : ∀ w ∈ ws, F.IsFrame w) (ht : F.Incomplete t) :
    F.parse (ws.flatten ++ t) = ⟨ws.map fun w => (F.hdr w, w.drop F.hdrLen), t, false⟩ := by
  have hp := parse_flatten ws hws
  rw [parse_append F ws.flatten t (by rw [hp]), hp, List.nil_append, ht, List.append_nil]

/-- **A first piece of a stream that is read to its end is read to its end**, as the first frames of the stream. -/
theorem parse_piece (s t : List β) (hb : (F.parse (s ++ t)).bad = false) :
    (F.parse s).bad = false ∧ (F.parse s).frames <+: (F.parse (s ++ t)).frames := by
  cases hs : (F.parse s).bad with
  | true =>
    rw [parse_append_bad F s t hs] at hb
    cases hb
  | false =>
    rw [parse_append F s t hs]
    exact ⟨rfl, List.prefix_append _ _⟩

/-- What a framed stream announces are the bodies of its frames, and of the one begun. -/
theorem announced_framed {ws : List (List β)} {w t : List β} (hws : ∀ x ∈ ws, F.IsFrame x) (hw : F.IsFrame w)
    (ht : t <+: w) (hlt : t.length < w.length) {n : Nat} (hn : n ∈ F.announced (ws.flatten ++ t)) :
    ∃ x ∈ w :: ws, n = F.bodyLen (F.hdr x) := by
  have hinc := incomplete_of_begun hw ht hlt
  rw [announced, parse_framed hws hinc] at hn
  rcases List.mem_append.1 hn with hn | hn
  · obtain ⟨f, hf, rfl⟩ := List.mem_map.1 hn
    obtain ⟨x, hx, rfl⟩ := List.mem_map.1 hf
    exact ⟨x, List.mem_cons_of_mem w hx, rfl⟩
  · split at hn
    · rename_i h
      obtain ⟨r, rfl⟩ := ht
      exact ⟨t ++ r, List.mem_cons_self, by rw [hdr_append r h.1]; exact List.mem_singleton.1 hn⟩
    · cases hn

end Format
end Framing
