import DevMgr.MiscUtils
/-!
# ParseDWord — the numbers that are read exactly

`ParseDWord` adds up the digits in a `DWORD` and does not look whether they fit in it: a run of digits with a greater
value is accepted as well, and read as what is left of the value in 32 bits.
-/
namespace DevMgr.MiscUtils

/-- A text that is blanks, a run of digits that is a number, and blanks in front of `rest`. -/
structure NumberText (fLeadingZerosAllowed : Bool) (s blanks digits blanks' rest : List BYTE) : Prop where
  text : s = blanks ++ digits ++ blanks' ++ rest
  front : ∀ c ∈ blanks, c = 32
  run : ∀ c ∈ digits, isDigit c = true
  number : IsNumber fLeadingZerosAllowed digits
  maximal : ∀ c ∈ (blanks' ++ rest).head?, isDigit c = false
  behind : ∀ c ∈ blanks', c = 32
  stop : ∀ c ∈ rest.head?, c ≠ 32

/-- A call that reads exactly: it accepts a number only and gives its value, or gives 0 and leaves the pointer. -/
structure Exact (fLeadingZerosAllowed : Bool) (szData : List BYTE) : Prop where
  accepted : ∀ rdw rszPointer, parseDWord szData fLeadingZerosAllowed = (true, rdw, rszPointer) →
    ∃ blanks digits blanks', NumberText fLeadingZerosAllowed szData blanks digits blanks' rszPointer ∧
      rdw.toNat = valueOf digits
  refused : ∀ rdw rszPointer, parseDWord szData fLeadingZerosAllowed = (false, rdw, rszPointer) →
    rdw = 0 ∧ rszPointer = szData

/-! ## A text and its run of digits -/

theorem dropWhile_head {p : BYTE → Bool} (s : List BYTE) : ∀ c ∈ (s.dropWhile p).head?, p c = false := by
  intro c hc
  have h := List.head?_dropWhile_not p s
  rw [Option.mem_def.1 hc] at h
  exact h

theorem dropWhile_of_head {p : BYTE → Bool} {s : List BYTE} (h : ∀ c ∈ s.head?, p c = false) : s.dropWhile p = s := by
  cases s with
  | nil => rfl
  | cons c s => exact List.dropWhile_cons_of_neg (by simp [h c rfl])

theorem takeWhile_of_head {p : BYTE → Bool} {s : List BYTE} (h : ∀ c ∈ s.head?, p c = false) : s.takeWhile p = [] := by
  cases s with
  | nil => rfl
  | cons c s => exact List.takeWhile_cons_of_neg (by simp [h c rfl])

section
variable {fLeadingZerosAllowed : Bool} {s blanks digits blanks' rest : List BYTE}

/-- A number is found where its digits are. -/
theorem NumberText.digitRun_eq (h : NumberText fLeadingZerosAllowed s blanks digits blanks' rest) :
    digitRun s = digits := by
  have hfirst : ∀ c ∈ (digits ++ (blanks' ++ rest)).head?, decide (c = (32 : BYTE)) = false := by
    obtain ⟨d, ds, rfl⟩ := List.exists_cons_of_ne_nil h.number.1
    intro c hc
    obtain rfl := Option.some.inj hc
    have hd := h.run d List.mem_cons_self
    rw [decide_eq_false_iff_not]
    rintro rfl
    cases hd
  rw [digitRun, h.text, List.append_assoc, List.append_assoc,
    List.dropWhile_append_of_pos (fun c hc => decide_eq_true (h.front c hc)), dropWhile_of_head hfirst,
    List.takeWhile_append_of_pos h.run, takeWhile_of_head h.maximal, List.append_nil]

/-- Every text whose digits are a number is of this form. -/
theorem numberText_of_isNumber (h : IsNumber fLeadingZerosAllowed (digitRun s)) :
    NumberText fLeadingZerosAllowed s (s.takeWhile (· = 32)) (digitRun s)
      (((s.dropWhile (· = 32)).dropWhile isDigit).takeWhile (· = 32)) (behindRun s) where
  text := by
    rw [digitRun, behindRun, List.append_assoc, List.append_assoc, List.takeWhile_append_dropWhile,
      List.takeWhile_append_dropWhile, List.takeWhile_append_dropWhile]
  front := fun _ hc => of_decide_eq_true (List.mem_takeWhile_imp hc :)
  run := fun _ hc => List.mem_takeWhile_imp hc
  number := h
  maximal := by
    rw [behindRun, List.takeWhile_append_dropWhile]
    exact dropWhile_head _
  behind := fun _ hc => of_decide_eq_true (List.mem_takeWhile_imp hc :)
  stop := fun c hc => of_decide_eq_false (dropWhile_head _ c hc)

end

/-- **The parser is exact on a text exactly when its digits, if they are accepted as a number, fit in 32 bits.** -/
theorem parseDWord_exact_iff (fLeadingZerosAllowed : Bool) (szData : List BYTE) :
    Exact fLeadingZerosAllowed szData ↔
      (IsNumber fLeadingZerosAllowed (digitRun szData) → valueOf (digitRun szData) < 2 ^ 32) := by
  have hrun := parseDWord_run szData fLeadingZerosAllowed
  constructor
  · intro h hnum
    rw [if_pos hnum] at hrun
    obtain ⟨blanks, digits, blanks', htext, hvalue⟩ := h.accepted _ _ hrun
    rw [htext.digitRun_eq, ← hvalue]
    exact UInt32.toNat_lt _
  · intro h
    by_cases hnum : IsNumber fLeadingZerosAllowed (digitRun szData)
    · rw [if_pos hnum] at hrun
      constructor
      · intro rdw rszPointer hcall
        rw [hrun] at hcall
        cases hcall
        refine ⟨_, _, _, numberText_of_isNumber hnum, ?_⟩
        rw [UInt32.toNat_ofNat', Nat.mod_eq_of_lt (h hnum)]
      · intro rdw rszPointer hcall
        rw [hrun] at hcall
        cases hcall
    · rw [if_neg hnum] at hrun
      constructor
      · intro rdw rszPointer hcall
        rw [hrun] at hcall
        cases hcall
      · intro rdw rszPointer hcall
        rw [hrun] at hcall
        cases hcall
        exact ⟨rfl, rfl⟩

/-- **2^32 is accepted as 0.** -/
theorem wrapped_not_exact : ¬ Exact false (ascii "4294967296") := by
  intro h
  have hcall : parseDWord (ascii "4294967296") false = (true, 0, []) := by decide
  obtain ⟨blanks, digits, blanks', htext, hvalue⟩ := h.accepted _ _ hcall
  have hdigits : digits = ascii "4294967296" := by
    rw [← htext.digitRun_eq]
    decide
  rw [hdigits] at hvalue
  exact absurd hvalue (by decide)

end DevMgr.MiscUtils
