import DevMgr.MiscUtils
import Mathlib.Logic.Function.Basic
/-!
# PointerVars — `ParseUnquotedString` on the caller's variables

`rszPointer` is a reference: the scan moves the caller's own variable, which may be the one whose value was passed as
`szData`.  Here the pointers are positions in the bytes that the text is in (`mem`), the caller's variables are named
(`vars`), and `szOut` is an object of its own; `none` is a read or a store outside of them.

`parseUnquotedString_refines`: such a call does what `MiscUtils.parseUnquotedString` says of the text.
-/
namespace DevMgr.PointerVars

open MiscUtils (copyUntil)

variable {ι : Type}

/-- The variables, `szOut`, and `pchOut` counted from its beginning. -/
structure ParseState (ι : Type) where
  vars : ι → Nat
  szOut : List BYTE
  pchOut : Nat

/-- `*pchOut++ = c`. -/
def ParseState.store (st : ParseState ι) (c : BYTE) : Option (ParseState ι) :=
  if st.pchOut < st.szOut.length then
    some { st with szOut := st.szOut.set st.pchOut c, pchOut := st.pchOut + 1 }
  else none

def ParseState.advance [DecidableEq ι] (st : ParseState ι) (rszPointer : ι) : ParseState ι :=
  { st with vars := Function.update st.vars rszPointer (st.vars rszPointer + 1) }

/-- The copying loop, `n` bytes before the last one of `szOut`. -/
def copyLoop [DecidableEq ι] (mem : List BYTE) (chDelimiter : BYTE) (rszPointer : ι) :
    Nat → ParseState ι → Option (ParseState ι)
  | 0, st => mem[st.vars rszPointer]?.map fun _ => st
  | n + 1, st => match mem[st.vars rszPointer]? with
    | none => none
    | some c =>
      if c = 0 ∨ chDelimiter = c then some st
      else match st.store c with
        | none => none
        | some st => copyLoop mem chDelimiter rszPointer n (st.advance rszPointer)

/-- How far the character is, if it stands before the terminating zero. -/
def strchr (c : BYTE) : List BYTE → Option (Option Nat)
  | [] => none
  | x :: s =>
    if x = c then some (some 0)
    else if x = 0 then some none
    else (strchr c s).map fun r => r.map (· + 1)

/-- What the call returns, the variables and `szOut` after it. -/
def parseUnquotedString [DecidableEq ι] (mem : List BYTE) (szData : Nat) (chDelimiter : BYTE) (szOut : List BYTE)
    (cbOut : Nat) (rszPointer : ι) (vars : ι → Nat) : Option (Bool × (ι → Nat) × List BYTE) :=
  let vars := Function.update vars rszPointer szData
  match copyLoop mem chDelimiter rszPointer (cbOut - 1) { vars, szOut, pchOut := 0 } with
  | none => none
  | some st => match st.store 0 with
    | none => none
    | some { vars, szOut, .. } => match mem[vars rszPointer]? with
      | none => none
      | some c =>
        if chDelimiter ≠ c then
          match strchr chDelimiter (mem.drop (vars rszPointer)) with
          | none => none
          | some none => some (false, Function.update vars rszPointer szData, szOut)
          | some (some n) => some (true, Function.update vars rszPointer (vars rszPointer + n), szOut)
        else some (true, vars, szOut)

/-! ## The text -/

section
variable {ch : BYTE} {s : List BYTE}

/-- Without the delimiter the copy ends where the text or the room does. -/
theorem copyUntil_absent : ∀ (n : Nat) {s : List BYTE}, ch ∉ s → copyUntil ch n s = (s.take n, s.drop n)
  | 0, [], _ => rfl
  | _ + 1, [], _ => rfl
  | 0, _ :: _, _ => rfl
  | n + 1, c :: s, h => by
    have hc : c ≠ ch := fun he => h (he ▸ List.mem_cons_self)
    rw [copyUntil, if_neg hc, copyUntil_absent n fun hm => h (List.mem_cons_of_mem _ hm)]
    rfl

/-- **What a scan gives of a text**: the first bytes, as many as there is room for, up to the first delimiter or the
end; and what stands from the first delimiter on, if there is one. -/
theorem parseUnquotedString_spec (s : List BYTE) (ch : BYTE) (cbOut : Nat) : MiscUtils.parseUnquotedString s ch cbOut =
    (s.take (min (cbOut - 1) (s.idxOf ch)) ++ [0], if ch ∈ s then some (s.drop (s.idxOf ch)) else none) := by
  by_cases h : ch ∈ s
  · obtain ⟨u, v, rfl, hu⟩ := List.eq_append_cons_of_mem h
    rw [MiscUtils.parseUnquotedString_of_free hu, if_pos h, List.idxOf_append_of_notMem hu, List.idxOf_cons_self]
    rw [Nat.add_zero, List.drop_left, List.take_append_of_le_length (Nat.min_le_right ..), List.take_eq_take_min]
  · rw [if_neg h, List.idxOf_eq_length h]
    refine Prod.ext ?_ (MiscUtils.parseUnquotedString_absent h cbOut)
    show (copyUntil ch (cbOut - 1) s).1 ++ [0] = _
    rw [copyUntil_absent _ h, ← List.take_eq_take_min]

theorem copyUntil_append (ch : BYTE) : ∀ (n : Nat) (s : List BYTE), (copyUntil ch n s).1 ++ (copyUntil ch n s).2 = s
  | 0, [] => rfl
  | _ + 1, [] => rfl
  | 0, _ :: _ => rfl
  | n + 1, c :: s => by
    rw [copyUntil]
    split
    · rfl
    · exact congrArg (c :: ·) (copyUntil_append ch n s)

theorem strchr_first {u : List BYTE} (hu : ch ∉ u) (h0 : 0 ∉ u) (v : List BYTE) :
    strchr ch (u ++ ch :: v) = some (some u.length) := by
  induction u with
  | nil => exact if_pos rfl
  | cons x u ih =>
    rw [List.mem_cons, not_or] at hu h0
    rw [List.cons_append, strchr, if_neg (Ne.symm hu.1), if_neg (Ne.symm h0.1), ih hu.2 h0.2]
    rfl

theorem strchr_absent (h : ch ∉ s) (h0 : 0 ∉ s) (hch : ch ≠ 0) (t : List BYTE) :
    strchr ch (s ++ 0 :: t) = some none := by
  induction s with
  | nil => rw [List.nil_append, strchr, if_neg hch.symm, if_pos rfl]
  | cons x s ih =>
    rw [List.mem_cons, not_or] at h h0
    rw [List.cons_append, strchr, if_neg (Ne.symm h.1), if_neg (Ne.symm h0.1), ih h.2 h0.2]
    rfl

/-- The second search goes on where the copy stopped: it is made unless the delimiter is there. -/
theorem seek_found {u : List BYTE} (hu : ch ∉ u) (h0 : 0 ∉ u) (v : List BYTE) :
    ∃ c, (u ++ ch :: v).head? = some c ∧
      (ch = c ∧ u.length = 0 ∨ ch ≠ c ∧ strchr ch (u ++ ch :: v) = some (some u.length)) := by
  cases u with
  | nil => exact ⟨ch, rfl, .inl ⟨rfl, rfl⟩⟩
  | cons c u => exact ⟨c, rfl, .inr ⟨fun he => hu (he ▸ List.mem_cons_self), strchr_first hu h0 v⟩⟩

theorem seek_absent (h : ch ∉ s) (h0 : 0 ∉ s) (hch : ch ≠ 0) (t : List BYTE) :
    ∃ c, (s ++ 0 :: t).head? = some c ∧ ch ≠ c ∧ strchr ch (s ++ 0 :: t) = some none := by
  cases s with
  | nil => exact ⟨0, rfl, hch, strchr_absent h h0 hch t⟩
  | cons c s => exact ⟨c, rfl, fun he => h (he ▸ List.mem_cons_self), strchr_absent h h0 hch t⟩

end

/-! ## The call -/

/-- What has been copied stands in `szOut`, and the store is behind it. -/
theorem store_eq (vars : ι → Nat) (w : List BYTE) (x c : BYTE) (rest : List BYTE) :
    ParseState.store ⟨vars, w ++ x :: rest, w.length⟩ c = some ⟨vars, w ++ c :: rest, w.length + 1⟩ := by
  have hl : w.length < (w ++ x :: rest).length := by
    rw [List.length_append, List.length_cons]
    omega
  rw [ParseState.store, if_pos hl]
  dsimp only
  rw [List.set_append_right _ _ (Nat.le_refl _), Nat.sub_self, List.set_cons_zero]

section
variable [DecidableEq ι] {mem s t szOut : List BYTE} {ch : BYTE} {szData cbOut : Nat} {r : ι} {vars : ι → Nat}

theorem read_eq {i : Nat} {p : List BYTE} (h : mem.drop i = p) : mem[i]? = p.head? := by
  rw [← h, List.head?_drop]

/-- **The loop copies what `copyUntil` copies**, and the variable is where that stops. -/
theorem copyLoop_eq : ∀ (n : Nat) {s : List BYTE} {vars : ι → Nat} {w rest : List BYTE},
    mem.drop (vars r) = s ++ 0 :: t → 0 ∉ s → (copyUntil ch n s).1.length ≤ rest.length →
      copyLoop mem ch r n ⟨vars, w ++ rest, w.length⟩ =
        some ⟨Function.update vars r (vars r + (copyUntil ch n s).1.length),
          w ++ (copyUntil ch n s).1 ++ rest.drop (copyUntil ch n s).1.length,
          w.length + (copyUntil ch n s).1.length⟩ := by
  intro n
  have hstop : ∀ {vars : ι → Nat} {w rest : List BYTE}, (⟨vars, w ++ rest, w.length⟩ : ParseState ι) =
      ⟨Function.update vars r (vars r + ([] : List BYTE).length), w ++ [] ++ rest.drop 0, w.length + 0⟩ := by
    intro vars w rest
    rw [List.length_nil, Nat.add_zero, Function.update_eq_self, List.append_nil, List.drop_zero, Nat.add_zero]
  induction n with
  | zero =>
    intro s vars w rest hmem _ _
    have hcopy : copyUntil ch 0 s = ([], s) := by cases s <;> rfl
    have hread : ∃ c, mem[vars r]? = some c := by
      rw [read_eq hmem]
      cases s with
      | nil => exact ⟨_, rfl⟩
      | cons c s => exact ⟨_, rfl⟩
    obtain ⟨c, hc⟩ := hread
    rw [copyLoop, hc, hcopy]
    exact congrArg some hstop
  | succ n ih =>
    intro s vars w rest hmem h0 hrest
    rw [copyLoop, read_eq hmem]
    cases s with
    | nil => exact congrArg some hstop
    | cons c s =>
      have hc0 : c ≠ 0 := fun he => h0 (he ▸ List.mem_cons_self)
      rw [List.cons_append, List.head?_cons]
      by_cases hc : c = ch
      · rw [copyUntil, if_pos hc]
        dsimp only
        rw [if_pos (.inr hc.symm)]
        exact congrArg some hstop
      · rw [copyUntil, if_neg hc] at hrest ⊢
        dsimp only at hrest ⊢
        rw [if_neg (by rintro (h | h); exacts [hc0 h, hc h.symm])]
        obtain ⟨x, rest, rfl⟩ := List.exists_cons_of_length_pos (Nat.lt_of_lt_of_le (Nat.succ_pos _) hrest)
        rw [store_eq]
        dsimp only
        have hnext : mem.drop (Function.update vars r (vars r + 1) r) = s ++ 0 :: t := by
          rw [Function.update_self, ← List.drop_drop, hmem]
          rfl
        have hw : w ++ c :: rest = (w ++ [c]) ++ rest := by rw [List.append_assoc]; rfl
        have hl : w.length + 1 = (w ++ [c]).length := by rw [List.length_append, List.length_singleton]
        have h0s : 0 ∉ s := fun h => h0 (List.mem_cons_of_mem _ h)
        rw [hw, hl, ParseState.advance, ih hnext h0s (Nat.le_of_succ_le_succ hrest)]
        rw [Function.update_self, Function.update_idem, List.length_cons, List.append_assoc w, List.singleton_append]
        rw [List.length_append, List.length_singleton, List.drop_succ_cons]
        rw [Nat.add_assoc (vars r), Nat.add_comm 1, Nat.add_assoc w.length, Nat.add_comm 1]

/-- **The call does what the scan of the text says**: it writes what the scan gives and no more, and leaves the variable
where the rest begins, or at `szData`. -/
theorem parseUnquotedString_refines (hmem : mem.drop szData = s ++ 0 :: t) (h0 : 0 ∉ s) (hch : ch ≠ 0)
    (hout : (MiscUtils.parseUnquotedString s ch cbOut).1.length ≤ szOut.length) (vars : ι → Nat) :
    parseUnquotedString mem szData ch szOut cbOut r vars =
      some ((MiscUtils.parseUnquotedString s ch cbOut).2.isSome,
        Function.update vars r
          (szData + (s.length - ((MiscUtils.parseUnquotedString s ch cbOut).2.getD s).length)),
        (MiscUtils.parseUnquotedString s ch cbOut).1 ++
          szOut.drop (MiscUtils.parseUnquotedString s ch cbOut).1.length) := by
  have hs := copyUntil_append ch (cbOut - 1) s
  have hstart : mem.drop (Function.update vars r szData r) = s ++ 0 :: t := by
    rw [Function.update_self]
    exact hmem
  have hloop : (copyUntil ch (cbOut - 1) s).1.length ≤ szOut.length → _ :=
    copyLoop_eq (cbOut - 1) (w := []) hstart h0
  unfold MiscUtils.parseUnquotedString at hout ⊢
  unfold parseUnquotedString
  generalize copyUntil ch (cbOut - 1) s = copy at hs hloop hout
  obtain ⟨out, p⟩ := copy
  dsimp only at hs hloop hout ⊢
  rw [List.length_append, List.length_singleton] at hout
  obtain ⟨x, rest, hx⟩ := List.exists_cons_of_length_pos (l := szOut.drop out.length) (by rw [List.length_drop]; omega)
  have hrest : szOut.drop (out.length + 1) = rest := by rw [← List.drop_drop, hx]; rfl
  have hp : mem.drop (szData + out.length) = p ++ 0 :: t := by
    rw [← List.drop_drop, hmem, ← hs, List.append_assoc, List.drop_left]
  rw [List.nil_append, List.nil_append, List.length_nil, Nat.zero_add, Function.update_self, Function.update_idem, hx]
    at hloop
  rw [hloop (by omega)]
  dsimp only
  rw [store_eq]
  dsimp only
  rw [Function.update_self, read_eq hp, hp, List.length_append, List.length_singleton, hrest]
  have h0p : 0 ∉ p := fun h => h0 (hs ▸ List.mem_append_right _ h)
  by_cases hmemp : ch ∈ p
  · obtain ⟨u, v, rfl, hu⟩ := List.eq_append_cons_of_mem hmemp
    have hpos : s.length - (ch :: v).length = out.length + u.length := by
      rw [← hs, List.length_append, List.length_append]
      omega
    rw [MiscUtils.dropWhile_ne_append hu]
    dsimp only
    rw [Option.isSome_some, Option.getD_some, hpos, List.append_assoc u, List.append_assoc, List.singleton_append]
    obtain ⟨c, hc, ⟨rfl, hul⟩ | ⟨hne, hfirst⟩⟩ := seek_found hu (fun h => h0p (List.mem_append_left _ h)) (v ++ 0 :: t)
    · rw [List.cons_append, hc]
      dsimp only
      rw [if_neg (not_not_intro rfl), hul, Nat.add_zero]
    · rw [List.cons_append, hc]
      dsimp only
      rw [if_pos hne, hfirst]
      dsimp only
      rw [Function.update_idem, Nat.add_assoc]
  · obtain ⟨c, hc, hne, hnone⟩ := seek_absent hmemp h0p hch t
    rw [MiscUtils.dropWhile_ne_of_notMem hmemp, hc]
    dsimp only
    rw [if_pos hne, hnone]
    dsimp only
    rw [Function.update_idem, Option.getD_none, Nat.sub_self, Nat.add_zero, List.append_assoc]
    rfl

/-- **`ParseUnquotedString`**: it writes the first bytes of the text, as many as `cbOut` has room for but none from the
first delimiter on, and a zero, and nothing else of `szOut`; it returns `TRUE` exactly when the delimiter is in the
text, with the variable at the first one, and otherwise leaves the variable at `szData`; `q` may be `p`. -/
theorem parseUnquotedString_call {p : ι} (q : ι) (hmem : mem.drop (vars p) = s ++ 0 :: t) (h0 : 0 ∉ s) (hch : ch ≠ 0)
    (hout : min (cbOut - 1) (s.idxOf ch) < szOut.length) :
    parseUnquotedString mem (vars p) ch szOut cbOut q vars =
      some (decide (ch ∈ s),
        Function.update vars q (if ch ∈ s then vars p + s.idxOf ch else vars p),
        s.take (min (cbOut - 1) (s.idxOf ch)) ++ 0 :: szOut.drop (min (cbOut - 1) (s.idxOf ch) + 1)) := by
  have hlen : (s.take (min (cbOut - 1) (s.idxOf ch))).length = min (cbOut - 1) (s.idxOf ch) := by
    rw [List.length_take]
    exact Nat.min_eq_left ((Nat.min_le_right ..).trans List.idxOf_le_length)
  have hspec := parseUnquotedString_spec s ch cbOut
  rw [parseUnquotedString_refines hmem h0 hch (by rw [hspec, List.length_append, hlen]; exact hout), hspec]
  dsimp only
  rw [List.length_append, List.length_singleton, hlen, List.append_assoc, List.singleton_append]
  by_cases h : ch ∈ s
  · have hpos : s.length - (s.drop (s.idxOf ch)).length = s.idxOf ch := by
      rw [List.length_drop]
      exact Nat.sub_sub_self List.idxOf_le_length
    rw [if_pos h, if_pos h, Option.isSome_some, Option.getD_some, hpos, decide_eq_true h]
  · rw [if_neg h, if_neg h, Option.isSome_none, Option.getD_none, Nat.sub_self, Nat.add_zero, decide_eq_false h]

/-- One variable, a field that is cut short, and the pointer behind what was copied. -/
theorem parseUnquotedString_call_cut :
    parseUnquotedString (ascii "ab\tc" ++ [0, 7]) 0 9 [1, 2, 3] 2 () (fun _ => 0) =
      some (true, Function.update (fun _ => 0) () 2, [97, 0, 3]) := by
  have hmem : (ascii "ab\tc" ++ [0, 7]).drop 0 = ascii "ab\tc" ++ 0 :: [7] := rfl
  have h0 : 0 ∉ ascii "ab\tc" := by decide
  have hout : min (2 - 1) ((ascii "ab\tc").idxOf 9) < ([1, 2, 3] : List BYTE).length := by decide
  exact @parseUnquotedString_call Unit _ _ _ _ [1, 2, 3] 9 2 (fun _ => 0) () () hmem h0 (by decide) hout

end

end DevMgr.PointerVars
