import DevMgr.GlobalDef
import Mathlib.Data.List.TakeWhile
import Mathlib.Data.Nat.Digits.Lemmas
/-!
# MiscUtils — the scanners of the commands' output

`MiscUtils.cpp`.  A pointer into a string is what stands from it to the terminating zero.
-/
namespace DevMgr

/-- The bytes of a literal. -/
def ascii (s : String) : List BYTE := s.toList.map fun c => UInt8.ofNat c.toNat

/-- A fact about each byte of a string, by evaluation. -/
theorem forall_of_all {q : BYTE → Prop} [DecidablePred q] {s : List BYTE} (h : s.all (q ·) = true) : ∀ c ∈ s, q c :=
  fun c hc => of_decide_eq_true (List.all_eq_true.1 h c hc)

namespace MiscUtils

/-- Where the first occurrence of `szMatch` is. -/
def strstr (szMatch : List BYTE) : List BYTE → Option Nat
  | [] => if szMatch = [] then some 0 else none
  | c :: s => if szMatch.isPrefixOf (c :: s) then some 0 else (strstr szMatch s).map (· + 1)

def isCrlf (c : BYTE) : Bool := c = 13 || c = 10

/-- The pointer after the call, and what it returns. -/
def skipCRLFs (szString : List BYTE) (fSkipChars : Bool) : List BYTE × Bool :=
  let p := if fSkipChars then szString.dropWhile (!isCrlf ·) else szString
  let p := p.dropWhile isCrlf
  (p, p.length ≠ szString.length)

/-- The pointer after the call, if it returns `TRUE`. -/
def matchStringBeginning (szString szMatch : List BYTE) : Option (List BYTE) :=
  match strstr szMatch szString with
  | some 0 => some (szString.drop szMatch.length)
  | _ => none

/-- The pointer after the call, if it returns `TRUE`. -/
def matchStringAnywhere (szString szMatch : List BYTE) : Option (List BYTE) :=
  (strstr szMatch szString).map fun n => szString.drop (n + szMatch.length)

def isDigit (c : BYTE) : Bool := 48 ≤ c && c ≤ 57

/-- `*rszPointer - '0'`. -/
def digitOf (c : BYTE) : DWORD := (c - 48).toUInt32

/-- The loop over the digits; `none` is the `-1` of `nLeadingDigit`.  `Found`, the value and the pointer after it. -/
def parseDigits (fLeadingZerosAllowed : Bool) : Option DWORD → DWORD → Bool → List BYTE → Bool × DWORD × List BYTE
  | _, rdw, found, [] => (found, rdw, [])
  | nLeadingDigit, rdw, found, c :: p =>
    if isDigit c then
      if fLeadingZerosAllowed then parseDigits fLeadingZerosAllowed nLeadingDigit (rdw * 10 + digitOf c) true p
      else match nLeadingDigit with
        | none => parseDigits fLeadingZerosAllowed (some (digitOf c)) (rdw * 10 + digitOf c) true p
        | some d =>
          if d = 0 then (false, rdw, c :: p)
          else parseDigits fLeadingZerosAllowed (some d) (rdw * 10 + digitOf c) true p
    else (found, rdw, c :: p)

/-- What the call returns, `rdw` and the pointer after it. -/
def parseDWord (szData : List BYTE) (fLeadingZerosAllowed : Bool) : Bool × DWORD × List BYTE :=
  match parseDigits fLeadingZerosAllowed none 0 false (szData.dropWhile (· = 32)) with
  | (true, rdw, p) => (true, rdw, p.dropWhile (· = 32))
  | (false, rdw, _) => (false, rdw, szData)

/-- The copying loop, with room for `n` bytes: what it copies, and where it stops. -/
def copyUntil (chDelimiter : BYTE) : Nat → List BYTE → List BYTE × List BYTE
  | _, [] => ([], [])
  | 0, s => ([], s)
  | n + 1, c :: s =>
    if c = chDelimiter then ([], c :: s)
    else (c :: (copyUntil chDelimiter n s).1, (copyUntil chDelimiter n s).2)

/-- The bytes written to `szOut`, and the pointer after the call if it returns `TRUE`. -/
def parseUnquotedString (szData : List BYTE) (chDelimiter : BYTE) (cbOut : Nat) : List BYTE × Option (List BYTE) :=
  let (out, p) := copyUntil chDelimiter (cbOut - 1) szData
  (out ++ [0], match p.dropWhile (· ≠ chDelimiter) with
    | [] => none
    | c :: p => some (c :: p))

/-- **A match at the beginning is a prefix.** -/
theorem strstr_zero {szMatch : List BYTE} : ∀ {s : List BYTE}, strstr szMatch s = some 0 ↔ szMatch <+: s
  | [] => by
    rw [strstr, List.prefix_nil]
    split <;> simp [*]
  | c :: s => by
    rw [strstr]
    split
    · exact iff_of_true rfl (List.isPrefixOf_iff_prefix.1 ‹_›)
    · rename_i hp
      refine iff_of_false (fun h => ?_) fun h => hp (List.isPrefixOf_iff_prefix.2 h)
      obtain ⟨n, -, hn⟩ := Option.map_eq_some_iff.1 h
      exact Nat.succ_ne_zero n hn

/-- **A match is the first place that has the bytes.** -/
theorem strstr_some {szMatch : List BYTE} : ∀ {s : List BYTE} {n : Nat},
    strstr szMatch s = some n ↔ (n ≤ s.length ∧ szMatch <+: s.drop n) ∧ ∀ k, k < n → ¬ szMatch <+: s.drop k
  | [], n => by
    rw [strstr]
    constructor
    · intro h
      split at h
      · rename_i hm
        cases h
        exact ⟨⟨Nat.le_refl 0, hm ▸ List.nil_prefix⟩, fun k hk => absurd hk (Nat.not_lt_zero k)⟩
      · cases h
    · rintro ⟨⟨hn, hp⟩, -⟩
      obtain rfl := Nat.le_zero.1 hn
      rw [if_pos (List.prefix_nil.1 hp)]
  | c :: s, n => by
    rw [strstr]
    split
    · rename_i hp
      have hp' := List.isPrefixOf_iff_prefix.1 hp
      constructor
      · intro h
        cases h
        exact ⟨⟨Nat.zero_le _, hp'⟩, fun k hk => absurd hk (Nat.not_lt_zero k)⟩
      · rintro ⟨-, hfirst⟩
        cases n with
        | zero => rfl
        | succ n => exact absurd hp' (hfirst 0 (Nat.zero_lt_succ n))
    · rename_i hp
      have hp' : ¬ szMatch <+: c :: s := fun h => hp (List.isPrefixOf_iff_prefix.2 h)
      rw [Option.map_eq_some_iff]
      constructor
      · rintro ⟨n, hn, rfl⟩
        obtain ⟨⟨hle, hat⟩, hfirst⟩ := strstr_some.1 hn
        refine ⟨⟨Nat.succ_le_succ hle, hat⟩, fun k hk => ?_⟩
        cases k with
        | zero => exact hp'
        | succ k => exact hfirst k (Nat.lt_of_succ_lt_succ hk)
      · rintro ⟨⟨hle, hat⟩, hfirst⟩
        cases n with
        | zero => exact absurd hat hp'
        | succ n =>
          have hn := strstr_some.2 ⟨⟨Nat.le_of_succ_le_succ hle, hat⟩, fun k hk => hfirst (k + 1) (Nat.succ_lt_succ hk)⟩
          exact ⟨n, hn, rfl⟩

/-- **There is no match exactly when the bytes are nowhere in the string.** -/
theorem strstr_eq_none {szMatch : List BYTE} : ∀ {s : List BYTE}, strstr szMatch s = none ↔ ¬ szMatch <:+: s
  | [] => by
    rw [strstr, List.infix_nil]
    split
    · exact iff_of_false (fun h => by cases h) (not_not_intro ‹_›)
    · exact iff_of_true rfl ‹_›
  | c :: s => by
    rw [strstr, List.infix_cons_iff]
    split
    · exact iff_of_false (fun h => by cases h) (not_not_intro (.inl (List.isPrefixOf_iff_prefix.1 ‹_›)))
    · rename_i hp
      rw [Option.map_eq_none_iff, strstr_eq_none, not_or]
      exact (and_iff_right fun h => hp (List.isPrefixOf_iff_prefix.2 h)).symm

/-- What stands in front of the first match has no part in it. -/
theorem strstr_drop {szMatch u v : List BYTE} (h : ∀ n, strstr szMatch (u ++ v) = some n → u.length ≤ n) :
    strstr szMatch v = (strstr szMatch (u ++ v)).map (· - u.length) := by
  have hdrop : ∀ k, (u ++ v).drop (u.length + k) = v.drop k := fun k => by rw [List.drop_append]; simp
  cases hs : strstr szMatch (u ++ v) with
  | none =>
    rw [Option.map_none]
    cases hv : strstr szMatch v with
    | none => rfl
    | some k =>
      have hin : szMatch <:+: v := by
        by_contra hno
        rw [strstr_eq_none.2 hno] at hv
        cases hv
      exact absurd (hin.trans (List.suffix_append u v).isInfix) (strstr_eq_none.1 hs)
  | some n =>
    have hn := h n hs
    obtain ⟨⟨hle, hat⟩, hfirst⟩ := strstr_some.1 hs
    rw [Option.map_some, strstr_some]
    rw [List.length_append] at hle
    refine ⟨⟨by omega, ?_⟩, fun k hk => ?_⟩
    · rw [← hdrop, Nat.add_sub_cancel' hn]
      exact hat
    · rw [← hdrop]
      exact hfirst _ (by omega)

theorem matchStringAnywhere_drop {szMatch u v : List BYTE}
    (h : ∀ n, strstr szMatch (u ++ v) = some n → u.length ≤ n) :
    matchStringAnywhere v szMatch = matchStringAnywhere (u ++ v) szMatch := by
  unfold matchStringAnywhere
  rw [strstr_drop h, Option.map_map]
  cases hs : strstr szMatch (u ++ v) with
  | none => rfl
  | some n =>
    have hn := h n hs
    rw [Option.map_some, Option.map_some, Function.comp_apply]
    rw [List.drop_append, List.drop_eq_nil_of_le (show u.length ≤ n + szMatch.length by omega), List.nil_append]
    congr 2
    omega

theorem matchStringAnywhere_eq_none {szMatch s : List BYTE} :
    matchStringAnywhere s szMatch = none ↔ ¬ szMatch <:+: s := by
  rw [matchStringAnywhere, Option.map_eq_none_iff, strstr_eq_none]

/-- A match ends the bytes in front of it. -/
theorem matchStringAnywhere_some {szMatch s q : List BYTE} (h : matchStringAnywhere s szMatch = some q) :
    ∃ u, s = u ++ szMatch ++ q := by
  obtain ⟨n, hn, rfl⟩ := Option.map_eq_some_iff.1 h
  obtain ⟨⟨-, t, ht⟩, -⟩ := strstr_some.1 hn
  refine ⟨s.take n, ?_⟩
  conv_lhs => rw [← List.take_append_drop n s, ← ht]
  rw [List.append_assoc, ← List.drop_drop, ← ht, List.drop_left]

theorem matchStringBeginning_some {s m p : List BYTE} : matchStringBeginning s m = some p ↔ s = m ++ p := by
  unfold matchStringBeginning
  split
  · rename_i h
    obtain ⟨t, rfl⟩ := strstr_zero.1 h
    rw [List.drop_left, Option.some.injEq, List.append_cancel_left_eq]
  · rename_i h
    refine iff_of_false (fun hn => by cases hn) fun he => h (strstr_zero.2 ⟨p, he.symm⟩)

theorem matchStringBeginning_none {s m : List BYTE} : matchStringBeginning s m = none ↔ ¬ m <+: s := by
  rw [Option.eq_none_iff_forall_ne_some]
  constructor
  · rintro h ⟨p, hp⟩
    exact h p (matchStringBeginning_some.2 hp.symm)
  · intro h p hp
    exact h ⟨p, (matchStringBeginning_some.1 hp).symm⟩

theorem skipCRLFs_length (s : List BYTE) (fSkipChars : Bool) : (skipCRLFs s fSkipChars).1.length ≤ s.length := by
  unfold skipCRLFs
  dsimp only
  split
  · exact ((List.dropWhile_sublist _).trans (List.dropWhile_sublist _)).length_le
  · exact (List.dropWhile_sublist _).length_le

theorem copyUntil_length (ch : BYTE) : ∀ (n : Nat) (s : List BYTE),
    (copyUntil ch n s).1.length ≤ n ∧ (copyUntil ch n s).2.length ≤ s.length
  | 0, [] => ⟨Nat.le_refl _, Nat.le_refl _⟩
  | _ + 1, [] => ⟨Nat.zero_le _, Nat.le_refl _⟩
  | 0, _ :: _ => ⟨Nat.le_refl _, Nat.le_refl _⟩
  | n + 1, c :: s => by
    rw [copyUntil]
    split
    · exact ⟨Nat.zero_le _, Nat.le_refl _⟩
    · obtain ⟨h1, h2⟩ := copyUntil_length ch n s
      exact ⟨Nat.succ_le_succ h1, Nat.le_succ_of_le h2⟩

theorem parseUnquotedString_fst_length (s : List BYTE) (ch : BYTE) {cbOut : Nat} (h : 0 < cbOut) :
    (parseUnquotedString s ch cbOut).1.length ≤ cbOut := by
  have hc := (copyUntil_length ch (cbOut - 1) s).1
  show ((copyUntil ch (cbOut - 1) s).1 ++ [0]).length ≤ cbOut
  rw [List.length_append, List.length_singleton]
  omega

theorem parseUnquotedString_length {s : List BYTE} {ch : BYTE} {cbOut : Nat} {p : List BYTE}
    (h : (parseUnquotedString s ch cbOut).2 = some p) : p.length ≤ s.length := by
  unfold parseUnquotedString at h
  dsimp only at h
  split at h
  · cases h
  · rename_i c q hd
    obtain rfl := Option.some.inj h
    rw [← hd]
    exact (List.dropWhile_sublist _).length_le.trans (copyUntil_length ch _ s).2

theorem copyUntil_of_free {ch : BYTE} : ∀ (n : Nat) {u : List BYTE}, ch ∉ u → ∀ (s : List BYTE),
    copyUntil ch n (u ++ ch :: s) = (u.take n, u.drop n ++ ch :: s)
  | 0, [], _, _ => rfl
  | _ + 1, [], _, _ => by rw [List.nil_append, copyUntil, if_pos rfl]; rfl
  | 0, _ :: _, _, _ => rfl
  | n + 1, c :: u, h, s => by
    have hc : c ≠ ch := fun he => h (he ▸ List.mem_cons_self)
    rw [List.cons_append, copyUntil, if_neg hc, copyUntil_of_free n fun hm => h (List.mem_cons_of_mem _ hm)]
    rfl

theorem dropWhile_ne_append {ch : BYTE} {u : List BYTE} (h : ch ∉ u) (s : List BYTE) :
    (u ++ ch :: s).dropWhile (· ≠ ch) = ch :: s := by
  rw [List.dropWhile_append_of_pos]
  · exact List.dropWhile_cons_of_neg (by simp)
  · intro c hc
    exact decide_eq_true fun he => h (he ▸ hc)

theorem dropWhile_ne_of_notMem {ch : BYTE} {s : List BYTE} (h : ch ∉ s) : s.dropWhile (· ≠ ch) = [] := by
  rw [List.dropWhile_eq_nil_iff]
  intro c hc
  exact decide_eq_true fun he => h (he ▸ hc)

/-- **A field that ends in its delimiter** is copied as far as it has room, and the pointer is left at the delimiter. -/
theorem parseUnquotedString_of_free {ch : BYTE} {u : List BYTE} (h : ch ∉ u) (s : List BYTE) (cbOut : Nat) :
    parseUnquotedString (u ++ ch :: s) ch cbOut = (u.take (cbOut - 1) ++ [0], some (ch :: s)) := by
  unfold parseUnquotedString
  rw [copyUntil_of_free _ h]
  dsimp only
  rw [dropWhile_ne_append fun hm => h (List.mem_of_mem_drop hm)]

theorem matchStringAnywhere_append (szMatch s : List BYTE) : matchStringAnywhere (szMatch ++ s) szMatch = some s := by
  rw [matchStringAnywhere, strstr_zero.2 (List.prefix_append _ _), Option.map_some, Nat.zero_add, List.drop_left]

theorem copyUntil_suffix (ch : BYTE) : ∀ (n : Nat) (s : List BYTE), (copyUntil ch n s).2 <:+ s
  | 0, [] => List.suffix_rfl
  | _ + 1, [] => List.suffix_rfl
  | 0, _ :: _ => List.suffix_rfl
  | n + 1, c :: s => by
    rw [copyUntil]
    split
    · exact List.suffix_rfl
    · exact (copyUntil_suffix ch n s).trans (List.suffix_cons c s)

/-- **Without its delimiter a field is not found**, whatever has been copied. -/
theorem parseUnquotedString_absent {ch : BYTE} {s : List BYTE} (h : ch ∉ s) (cbOut : Nat) :
    (parseUnquotedString s ch cbOut).2 = none := by
  unfold parseUnquotedString
  dsimp only
  rw [dropWhile_ne_of_notMem fun hm => h ((copyUntil_suffix ch _ s).mem hm)]

theorem parseDigits_suffix (fLeadingZerosAllowed : Bool) : ∀ (s : List BYTE) (lead : Option DWORD) (rdw : DWORD)
    (found : Bool), ∃ u, s = u ++ (parseDigits fLeadingZerosAllowed lead rdw found s).2.2 ∧ ∀ c ∈ u, isDigit c = true
  | [], _, _, _ => ⟨[], rfl, fun _ h => absurd h List.not_mem_nil⟩
  | c :: s, lead, rdw, found => by
    have hstop : ∃ u, c :: s = u ++ c :: s ∧ ∀ x ∈ u, isDigit x = true :=
      ⟨[], rfl, fun _ h => absurd h List.not_mem_nil⟩
    have hnext : isDigit c = true → ∀ lead' rdw' found', ∃ u,
        c :: s = u ++ (parseDigits fLeadingZerosAllowed lead' rdw' found' s).2.2 ∧ ∀ x ∈ u, isDigit x = true := by
      intro hc lead' rdw' found'
      obtain ⟨u, hu, hd⟩ := parseDigits_suffix fLeadingZerosAllowed s lead' rdw' found'
      refine ⟨c :: u, congrArg (c :: ·) hu, fun x hx => ?_⟩
      rcases List.mem_cons.1 hx with rfl | hx
      · exact hc
      · exact hd x hx
    unfold parseDigits
    split
    · rename_i hc
      split
      · exact hnext hc ..
      · cases lead with
        | none => exact hnext hc ..
        | some d =>
          dsimp only
          split
          · exact hstop
          · exact hnext hc ..
    · exact hstop

/-- **A number is read over blanks and digits only.** -/
theorem parseDWord_suffix (s : List BYTE) (fLeadingZerosAllowed : Bool) :
    ∃ u, s = u ++ (parseDWord s fLeadingZerosAllowed).2.2 ∧ ∀ c ∈ u, c = 32 ∨ isDigit c = true := by
  have hblank : ∀ l : List BYTE, ∀ c ∈ l.takeWhile (· = 32), c = 32 := by
    intro l c hc
    have h := List.mem_takeWhile_imp hc
    exact of_decide_eq_true h
  obtain ⟨u, hu, hd⟩ := parseDigits_suffix fLeadingZerosAllowed (s.dropWhile (· = 32)) none 0 false
  unfold parseDWord
  split
  · rename_i rdw p hp
    rw [hp] at hu
    refine ⟨s.takeWhile (· = 32) ++ u ++ p.takeWhile (· = 32), ?_, fun c hc => ?_⟩
    · rw [List.append_assoc, List.takeWhile_append_dropWhile, List.append_assoc, ← hu,
        List.takeWhile_append_dropWhile]
    · rcases List.mem_append.1 hc with hc | hc
      · rcases List.mem_append.1 hc with hc | hc
        · exact .inl (hblank s c hc)
        · exact .inr (hd c hc)
      · exact .inl (hblank p c hc)
  · exact ⟨[], rfl, fun _ h => absurd h List.not_mem_nil⟩

/-! ## Numbers in canonical decimal -/

def digitChar (d : Nat) : BYTE := UInt8.ofNat (48 + d)

/-- A number in decimal, without leading zeros. -/
def decimal (n : Nat) : List BYTE := if n = 0 then [48] else (Nat.digits 10 n).reverse.map digitChar

theorem digitChar_toNat {d : Nat} (h : d < 10) : (digitChar d).toNat = 48 + d := by
  rw [digitChar, UInt8.toNat_ofNat']
  omega

theorem isDigit_digitChar {d : Nat} (h : d < 10) : isDigit (digitChar d) = true := by
  have hd := digitChar_toNat h
  simp only [isDigit, Bool.and_eq_true, decide_eq_true_eq, UInt8.le_iff_toNat_le, hd]
  exact ⟨Nat.le_add_right _ _, Nat.add_le_add_left (Nat.le_of_lt_succ h) 48⟩

theorem digitOf_digitChar {d : Nat} (h : d < 10) : digitOf (digitChar d) = .ofNat d := by
  apply UInt32.toNat_inj.1
  have hle : (48 : BYTE) ≤ digitChar d := by
    rw [UInt8.le_iff_toNat_le, digitChar_toNat h]
    exact Nat.le_add_right _ _
  rw [digitOf, UInt8.toNat_toUInt32, UInt8.toNat_sub_of_le _ _ hle, digitChar_toNat h, UInt32.toNat_ofNat']
  show 48 + d - 48 = _
  omega

/-- The digits of a number are read to their end, when the first of them is not a zero. -/
theorem parseDigits_map {s : List BYTE} (hs : ∀ c ∈ s.head?, isDigit c = false) {lead : DWORD} (hlead : lead ≠ 0) :
    ∀ (ds : List Nat) (n : Nat), (∀ d ∈ ds, d < 10) →
    parseDigits false (some lead) (.ofNat n) true (ds.map digitChar ++ s) =
      (true, .ofNat (ds.foldl (fun v d => v * 10 + d) n), s)
  | [], n, _ => by
    cases s with
    | nil => rfl
    | cons c s =>
      rw [List.map_nil, List.nil_append, parseDigits, if_neg (by rw [hs c rfl]; exact Bool.false_ne_true)]
      rfl
  | d :: ds, n, hds => by
    have hd := hds d List.mem_cons_self
    have hstep : UInt32.ofNat n * 10 + digitOf (digitChar d) = .ofNat (n * 10 + d) := by
      rw [digitOf_digitChar hd, UInt32.ofNat_add, UInt32.ofNat_mul]
      rfl
    rw [List.map_cons, List.cons_append, parseDigits, if_pos (isDigit_digitChar hd), if_neg Bool.false_ne_true,
      if_neg hlead, hstep, parseDigits_map hs hlead ds (n * 10 + d) fun x hx => hds x (List.mem_cons_of_mem _ hx),
      List.foldl_cons]

theorem foldl_digits (L : List Nat) : L.reverse.foldl (fun v d => v * 10 + d) 0 = Nat.ofDigits 10 L := by
  rw [List.foldl_reverse]
  induction L with
  | nil => rfl
  | cons d L ih =>
    rw [List.foldr_cons, ih, Nat.ofDigits_cons]
    omega

/-- A number, and the first character behind it. -/
theorem parseDigits_decimal (n : Nat) {s : List BYTE} (hs : ∀ c ∈ s.head?, isDigit c = false) :
    parseDigits false none 0 false (decimal n ++ s) = (true, .ofNat n, s) := by
  unfold decimal
  split
  · rename_i h0
    subst h0
    cases s with
    | nil => rfl
    | cons c s =>
      have hc : ¬ isDigit c = true := by rw [hs c rfl]; exact Bool.false_ne_true
      rw [List.singleton_append, parseDigits, if_pos (show isDigit 48 = true by decide), if_neg Bool.false_ne_true,
        parseDigits, if_neg hc]
      rfl
  · rename_i h0
    have hvalue := foldl_digits (Nat.digits 10 n)
    rw [Nat.ofDigits_digits] at hvalue
    have hlt : ∀ d ∈ (Nat.digits 10 n).reverse, d < 10 := fun d hd =>
      Nat.digits_lt_base (by decide) (List.mem_reverse.1 hd)
    have hlead : ∀ d ∈ (Nat.digits 10 n).reverse.head?, d ≠ 0 := by
      intro d hd
      rw [List.head?_reverse, List.getLast?_eq_some_getLast (Nat.digits_ne_nil_iff_ne_zero.2 h0)] at hd
      rw [← Option.some.inj hd]
      exact Nat.getLast_digit_ne_zero 10 h0
    cases hds : (Nat.digits 10 n).reverse with
    | nil => exact absurd (List.reverse_eq_nil_iff.1 hds) (Nat.digits_ne_nil_iff_ne_zero.2 h0)
    | cons d ds =>
      rw [hds] at hvalue hlt hlead
      have hd := hlt d List.mem_cons_self
      have hne : digitOf (digitChar d) ≠ 0 := by
        rw [digitOf_digitChar hd]
        intro he
        have := congrArg UInt32.toNat he
        rw [UInt32.toNat_ofNat', Nat.mod_eq_of_lt (Nat.lt_trans hd (by decide))] at this
        exact hlead d rfl this
      have hstep : (0 : DWORD) * 10 + digitOf (digitChar d) = .ofNat (0 * 10 + d) := by
        rw [digitOf_digitChar hd, Nat.zero_mul, Nat.zero_add, UInt32.zero_mul, UInt32.zero_add]
      rw [List.map_cons, List.cons_append, parseDigits, if_pos (isDigit_digitChar hd), if_neg Bool.false_ne_true,
        hstep, parseDigits_map hs hne ds _ fun x hx => hlt x (List.mem_cons_of_mem _ hx)]
      rw [List.foldl_cons] at hvalue
      rw [hvalue]

theorem decimal_ne_nil (n : Nat) : decimal n ≠ [] := by
  unfold decimal
  split
  · exact List.cons_ne_nil _ _
  · rename_i h0
    intro h
    exact Nat.digits_ne_nil_iff_ne_zero.2 h0 (List.reverse_eq_nil_iff.1 (List.map_eq_nil_iff.1 h))

theorem isDigit_of_mem_decimal {n : Nat} {c : BYTE} (h : c ∈ decimal n) : isDigit c = true := by
  unfold decimal at h
  split at h
  · rw [List.mem_singleton.1 h]
    rfl
  · obtain ⟨d, hd, rfl⟩ := List.mem_map.1 h
    exact isDigit_digitChar (Nat.digits_lt_base (by decide) (List.mem_reverse.1 hd))

/-- **A number in canonical decimal is read exactly**, and the pointer is left behind it. -/
theorem parseDWord_decimal (n : Nat) {s : List BYTE} (hs : ∀ c ∈ s.head?, isDigit c = false ∧ c ≠ 32) :
    parseDWord (decimal n ++ s) false = (true, .ofNat n, s) := by
  have hspace : (decimal n ++ s).dropWhile (· = 32) = decimal n ++ s := by
    obtain ⟨c, p, hc⟩ := List.exists_cons_of_ne_nil (decimal_ne_nil n)
    have hd := isDigit_of_mem_decimal (n := n) (hc ▸ List.mem_cons_self : c ∈ decimal n)
    rw [hc, List.cons_append, List.dropWhile_cons_of_neg]
    intro he
    rw [of_decide_eq_true he] at hd
    cases hd
  have hrest : s.dropWhile (· = 32) = s := by
    cases s with
    | nil => rfl
    | cons c s => exact List.dropWhile_cons_of_neg fun he => (hs c rfl).2 (of_decide_eq_true he)
  rw [parseDWord, hspace, parseDigits_decimal n fun c hc => (hs c hc).1]
  dsimp only
  rw [hrest]

/-- The number that digits stand for. -/
def valueOf (digits : List BYTE) : Nat := digits.foldl (fun n c => n * 10 + (c.toNat - 48)) 0

/-- A decimal number without leading zeros, after blanks, and what stands behind it and more blanks. -/
def numeral (s : List BYTE) : Option (Nat × List BYTE) :=
  let p := s.dropWhile (· = 32)
  let digits := p.takeWhile isDigit
  if digits = [] ∨ (digits.head? = some 48 ∧ digits.length ≠ 1) then none
  else some (valueOf digits, (p.dropWhile isDigit).dropWhile (· = 32))

theorem digitOf_eq {c : BYTE} (h : isDigit c = true) : digitOf c = .ofNat (c.toNat - 48) := by
  have hc : (48 : BYTE) ≤ c := of_decide_eq_true (Bool.and_eq_true_iff.1 h).1
  apply UInt32.toNat_inj.1
  rw [digitOf, UInt8.toNat_toUInt32, UInt8.toNat_sub_of_le _ _ hc, UInt32.toNat_ofNat', Nat.mod_eq_of_lt]
  · rfl
  · exact Nat.lt_of_le_of_lt (Nat.sub_le ..) (Nat.lt_trans c.toNat_lt (by decide))

theorem digitOf_step (n : Nat) {c : BYTE} (h : isDigit c = true) :
    UInt32.ofNat n * 10 + digitOf c = .ofNat (n * 10 + (c.toNat - 48)) := by
  rw [digitOf_eq h, UInt32.ofNat_add, UInt32.ofNat_mul]
  rfl

theorem digitOf_eq_zero {c : BYTE} (h : isDigit c = true) : digitOf c = 0 ↔ c = 48 := by
  constructor
  · intro h0
    simp only [isDigit, Bool.and_eq_true, decide_eq_true_eq, UInt8.le_iff_toNat_le] at h
    rw [digitOf_eq (by simpa [isDigit, UInt8.le_iff_toNat_le] using h)] at h0
    have h0 := congrArg UInt32.toNat h0
    rw [UInt32.toNat_ofNat', Nat.mod_eq_of_lt (by have := c.toNat_lt; omega)] at h0
    have h48 : (48 : BYTE).toNat = 48 := rfl
    have hz : (0 : DWORD).toNat = 0 := rfl
    exact UInt8.toNat_inj.1 (by omega)
  · rintro rfl
    rfl

/-- Where leading zeros may be, or behind a first digit that is none, the loop runs over all the digits. -/
theorem parseDigits_run {fLeadingZerosAllowed : Bool} {lead : Option DWORD}
    (hlead : fLeadingZerosAllowed = false → ∃ d, lead = some d ∧ d ≠ 0) : ∀ (p : List BYTE) (n : Nat),
    parseDigits fLeadingZerosAllowed lead (.ofNat n) true p =
      (true, .ofNat ((p.takeWhile isDigit).foldl (fun n c => n * 10 + (c.toNat - 48)) n), p.dropWhile isDigit)
  | [], n => rfl
  | c :: p, n => by
    unfold parseDigits
    by_cases hc : isDigit c = true
    · rw [if_pos hc, List.takeWhile_cons_of_pos hc, List.dropWhile_cons_of_pos hc, List.foldl_cons, digitOf_step n hc]
      cases fLeadingZerosAllowed with
      | true =>
        rw [if_pos rfl]
        exact parseDigits_run hlead p _
      | false =>
        obtain ⟨d, rfl, hd⟩ := hlead rfl
        rw [if_neg Bool.false_ne_true]
        dsimp only
        rw [if_neg hd]
        exact parseDigits_run hlead p _
    · rw [if_neg hc, List.takeWhile_cons_of_neg hc, List.dropWhile_cons_of_neg hc]
      rfl

/-- The digits behind the blanks that a text begins with, and what stands behind them and more blanks. -/
def digitRun (s : List BYTE) : List BYTE := (s.dropWhile (· = 32)).takeWhile isDigit
def behindRun (s : List BYTE) : List BYTE := ((s.dropWhile (· = 32)).dropWhile isDigit).dropWhile (· = 32)

/-- Digits that are accepted as a number. -/
def IsNumber (fLeadingZerosAllowed : Bool) (digits : List BYTE) : Prop :=
  digits ≠ [] ∧ (fLeadingZerosAllowed = false → digits.head? = some 48 → digits.length = 1)

instance (fLeadingZerosAllowed : Bool) (digits : List BYTE) : Decidable (IsNumber fLeadingZerosAllowed digits) :=
  inferInstanceAs (Decidable (_ ∧ _))

/-- **The parser accepts the digits that are a number**, and reads its value in 32 bits. -/
theorem parseDWord_run (s : List BYTE) (fLeadingZerosAllowed : Bool) : parseDWord s fLeadingZerosAllowed =
    if IsNumber fLeadingZerosAllowed (digitRun s) then (true, .ofNat (valueOf (digitRun s)), behindRun s)
    else (false, 0, s) := by
  unfold parseDWord digitRun behindRun
  cases s.dropWhile (· = 32) with
  | nil => exact (if_neg fun h => h.1 rfl).symm
  | cons c p =>
    rw [parseDigits]
    by_cases hc : isDigit c = true
    · have hfirst : (0 : DWORD) * 10 + digitOf c = .ofNat (0 * 10 + (c.toNat - 48)) := digitOf_step 0 hc
      rw [if_pos hc, List.takeWhile_cons_of_pos hc, List.dropWhile_cons_of_pos hc, hfirst]
      cases fLeadingZerosAllowed with
      | true =>
        rw [if_pos rfl, parseDigits_run (fun h => by cases h),
          if_pos (show IsNumber true _ from ⟨List.cons_ne_nil _ _, fun h => by cases h⟩)]
        rfl
      | false =>
        rw [if_neg Bool.false_ne_true]
        by_cases h0 : c = 48
        · -- a zero is a number only by itself
          subst h0
          cases p with
          | nil => rfl
          | cons d p =>
            rw [parseDigits]
            by_cases hd : isDigit d = true
            · have hno : ¬ IsNumber false (48 :: (d :: p).takeWhile isDigit) := by
                rw [List.takeWhile_cons_of_pos hd]
                exact fun h => absurd (h.2 rfl rfl) (by simp)
              rw [if_pos hd, if_neg Bool.false_ne_true, if_neg hno]
              rfl
            · rw [if_neg hd, List.takeWhile_cons_of_neg hd, List.dropWhile_cons_of_neg hd,
                if_pos (show IsNumber false [48] from ⟨List.cons_ne_nil _ _, fun _ _ => rfl⟩)]
              rfl
        · have hyes : IsNumber false (c :: p.takeWhile isDigit) :=
            ⟨List.cons_ne_nil _ _, fun _ h => absurd (Option.some.inj h) h0⟩
          rw [parseDigits_run (fun _ => ⟨_, rfl, fun h => h0 ((digitOf_eq_zero hc).1 h)⟩), if_pos hyes]
          rfl
    · rw [if_neg hc, List.takeWhile_cons_of_neg hc, if_neg fun h => h.1 rfl]

theorem numeral_eq (s : List BYTE) : numeral s =
    if IsNumber false (digitRun s) then some (valueOf (digitRun s), behindRun s) else none := by
  have hiff : IsNumber false (digitRun s) ↔
      ¬ (digitRun s = [] ∨ (digitRun s).head? = some 48 ∧ (digitRun s).length ≠ 1) := by
    unfold IsNumber
    simp only [forall_const]
    tauto
  rw [if_congr hiff rfl rfl, ite_not]
  rfl

/-- **The parser reads the number of the text, in 32 bits**, and nothing where there is none. -/
theorem parseDWord_numeral (s : List BYTE) : parseDWord s false = match numeral s with
    | some (n, p) => (true, .ofNat n, p)
    | none => (false, 0, s) := by
  rw [parseDWord_run, numeral_eq]
  by_cases h : IsNumber false (digitRun s)
  · rw [if_pos h, if_pos h]
  · rw [if_neg h, if_neg h]

end MiscUtils

end DevMgr
