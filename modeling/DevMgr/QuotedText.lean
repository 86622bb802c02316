import Mathlib.Data.List.Basic
/-!
# QuotedText — literals between quotes in a text

A text over any alphabet, with a character that begins and ends a literal and is doubled in one.  `lex` reads a text
into its characters outside of literals and its literals, and `render` writes these; a text is read as tokens exactly
when it is what they are written as.  Nothing here names a program.
-/
namespace QuotedText

universe u

inductive Token (α : Type u) where
  | chr (c : α)
  | lit (s : List α)
  deriving DecidableEq, Repr

variable {α : Type u}

/-- Outside of literals, in one, or behind a quote that ends it if no other follows; with what was read of it. -/
inductive Mode (α : Type u) where
  | outside
  | inside (s : List α)
  | closing (s : List α)

section
variable [DecidableEq α] (quote : α)

def escape (s : List α) : List α := s.flatMap fun c => if c = quote then [quote, quote] else [c]

def render : List (Token α) → List α
  | [] => []
  | .chr c :: ts => c :: render ts
  | .lit s :: ts => quote :: escape quote s ++ quote :: render ts

def lexFrom : Mode α → List α → Option (List (Token α))
  | .outside, [] => some []
  | .outside, c :: s => if c = quote then lexFrom (.inside []) s else (lexFrom .outside s).map (.chr c :: ·)
  | .inside _, [] => none
  | .inside b, c :: s => if c = quote then lexFrom (.closing b) s else lexFrom (.inside (b ++ [c])) s
  | .closing b, [] => some [.lit b]
  | .closing b, c :: s =>
    if c = quote then lexFrom (.inside (b ++ [quote])) s else (lexFrom .outside s).map (.lit b :: .chr c :: ·)

def lex (s : List α) : Option (List (Token α)) := lexFrom quote .outside s

end

/-- No quote stands outside of the literals, and a literal does not follow another at once. -/
def Readable (quote : α) : List (Token α) → Prop
  | [] => True
  | .chr c :: ts => c ≠ quote ∧ Readable quote ts
  | [.lit _] => True
  | .lit _ :: .chr c :: ts => c ≠ quote ∧ Readable quote ts
  | .lit _ :: .lit _ :: _ => False

/-- The literals of a text, and the characters between them. -/
def literals (ts : List (Token α)) : List (List α) := ts.filterMap fun t => match t with
  | .chr _ => none
  | .lit s => some s

def chars (ts : List (Token α)) : List α := ts.filterMap fun t => match t with
  | .chr c => some c
  | .lit _ => none

@[simp] theorem literals_nil : literals ([] : List (Token α)) = [] := rfl

@[simp] theorem chars_nil : chars ([] : List (Token α)) = [] := rfl

@[simp] theorem literals_append (ts us : List (Token α)) : literals (ts ++ us) = literals ts ++ literals us :=
  List.filterMap_append

@[simp] theorem literals_chr (c : α) (ts : List (Token α)) : literals (.chr c :: ts) = literals ts := rfl

@[simp] theorem literals_lit (s : List α) (ts : List (Token α)) : literals (.lit s :: ts) = s :: literals ts := rfl

@[simp] theorem literals_map_chr (cs : List α) : literals (cs.map Token.chr) = [] := by
  induction cs with
  | nil => rfl
  | cons c cs ih => rw [List.map_cons, literals_chr, ih]

@[simp] theorem chars_append (ts us : List (Token α)) : chars (ts ++ us) = chars ts ++ chars us :=
  List.filterMap_append

@[simp] theorem chars_chr (c : α) (ts : List (Token α)) : chars (.chr c :: ts) = c :: chars ts := rfl

@[simp] theorem chars_lit (s : List α) (ts : List (Token α)) : chars (.lit s :: ts) = chars ts := rfl

@[simp] theorem chars_map_chr (cs : List α) : chars (cs.map Token.chr) = cs := by
  induction cs with
  | nil => rfl
  | cons c cs ih => rw [List.map_cons, chars_chr, ih]

theorem readable_map_chr {quote : α} {cs : List α} (h : quote ∉ cs) {ts : List (Token α)} (hts : Readable quote ts) :
    Readable quote (cs.map Token.chr ++ ts) := by
  induction cs with
  | nil => exact hts
  | cons c cs ih =>
    rw [List.mem_cons, not_or] at h
    exact ⟨Ne.symm h.1, ih h.2⟩

section
variable [DecidableEq α] {quote : α}

/-! ## Escaping -/

theorem escape_of_free {s : List α} (h : quote ∉ s) : escape quote s = s := by
  induction s with
  | nil => rfl
  | cons c s ih =>
    rw [List.mem_cons, not_or] at h
    unfold escape
    rw [List.flatMap_cons, if_neg (Ne.symm h.1), List.singleton_append]
    exact congrArg (c :: ·) (ih h.2)

theorem escape_append (s t : List α) : escape quote (s ++ t) = escape quote s ++ escape quote t :=
  List.flatMap_append

/-- Every quote of a literal is there twice. -/
theorem count_escape (s : List α) : (escape quote s).count quote = 2 * s.count quote := by
  induction s with
  | nil => rfl
  | cons c s ih =>
    have hcons : escape quote (c :: s) = (if c = quote then [quote, quote] else [c]) ++ escape quote s := rfl
    rw [hcons, List.count_append, ih]
    by_cases hc : c = quote
    · subst hc
      rw [if_pos rfl, List.count_cons_self, List.count_cons_self, List.count_cons_self, List.count_nil]
      omega
    · rw [if_neg hc, List.count_cons_of_ne hc, List.count_cons_of_ne hc, List.count_nil, Nat.zero_add]

/-! ## Writing and reading -/

@[simp] theorem render_append (ts us : List (Token α)) :
    render quote (ts ++ us) = render quote ts ++ render quote us := by
  induction ts with
  | nil => rfl
  | cons t ts ih =>
    cases t with
    | chr c => rw [List.cons_append, render, render, ih, List.cons_append]
    | lit s =>
      rw [List.cons_append, render, render, ih]
      simp only [List.append_assoc, List.cons_append]

@[simp] theorem render_map_chr (cs : List α) : render quote (cs.map Token.chr) = cs := by
  induction cs with
  | nil => rfl
  | cons c cs ih => rw [List.map_cons, render, ih]

/-- What has been read of the text of the token that is not yet complete. -/
def Mode.text (quote : α) : Mode α → List α
  | .outside => []
  | .inside b => quote :: escape quote b
  | .closing b => quote :: escape quote b ++ [quote]

theorem lexFrom_some {m : Mode α} {s : List α} {ts : List (Token α)} (h : lexFrom quote m s = some ts) :
    render quote ts = m.text quote ++ s ∧ Readable quote ts := by
  induction m, s using lexFrom.induct quote generalizing ts with
  | case1 =>
    cases h
    exact ⟨rfl, trivial⟩
  | case2 s ih =>
    rw [lexFrom, if_pos rfl] at h
    exact ih h
  | case3 c s hc ih =>
    rw [lexFrom, if_neg hc] at h
    obtain ⟨us, hus, rfl⟩ := Option.map_eq_some_iff.1 h
    obtain ⟨hr, hread⟩ := ih hus
    exact ⟨by rw [render, hr]; rfl, hc, hread⟩
  | case4 b => cases h
  | case5 s b ih =>
    rw [lexFrom, if_pos rfl] at h
    obtain ⟨hr, hread⟩ := ih h
    refine ⟨?_, hread⟩
    rw [hr, Mode.text, Mode.text, List.append_assoc, List.singleton_append]
  | case6 b c s hc ih =>
    rw [lexFrom, if_neg hc] at h
    obtain ⟨hr, hread⟩ := ih h
    refine ⟨?_, hread⟩
    rw [hr, Mode.text, Mode.text, escape_append, ← List.cons_append, List.append_assoc]
    unfold escape
    rw [List.flatMap_singleton, if_neg hc, List.singleton_append]
  | case7 b =>
    cases h
    refine ⟨?_, trivial⟩
    rw [render, render, Mode.text, List.append_nil]
  | case8 s b ih =>
    rw [lexFrom, if_pos rfl] at h
    obtain ⟨hr, hread⟩ := ih h
    refine ⟨?_, hread⟩
    rw [hr, Mode.text, Mode.text, escape_append, ← List.cons_append, List.append_assoc, List.append_assoc]
    unfold escape
    rw [List.flatMap_singleton, if_pos rfl]
    rfl
  | case9 b c s hc ih =>
    rw [lexFrom, if_neg hc] at h
    obtain ⟨us, hus, rfl⟩ := Option.map_eq_some_iff.1 h
    obtain ⟨hr, hread⟩ := ih hus
    refine ⟨?_, hc, hread⟩
    rw [render, render, hr, Mode.text, Mode.text, List.nil_append, List.append_assoc, List.singleton_append]

/-- The rest of a literal and the quote behind it. -/
theorem lexFrom_escape (s : List α) : ∀ (b t : List α),
    lexFrom quote (.inside b) (escape quote s ++ quote :: t) = lexFrom quote (.closing (b ++ s)) t := by
  induction s with
  | nil =>
    intro b t
    rw [List.append_nil]
    exact (congrArg (lexFrom quote (.inside b)) (List.nil_append _)).trans (by rw [lexFrom, if_pos rfl])
  | cons c s ih =>
    intro b t
    have hcons : escape quote (c :: s) = (if c = quote then [quote, quote] else [c]) ++ escape quote s := rfl
    rw [hcons, List.append_assoc]
    by_cases hc : c = quote
    · subst hc
      rw [if_pos rfl, List.cons_append, lexFrom, if_pos rfl, List.singleton_append, lexFrom, if_pos rfl, ih,
        List.append_assoc, List.singleton_append]
    · rw [if_neg hc, List.singleton_append, lexFrom, if_neg hc, ih, List.append_assoc, List.singleton_append]

theorem lex_render {ts : List (Token α)} (h : Readable quote ts) : lex quote (render quote ts) = some ts := by
  unfold lex
  induction ts using Readable.induct with
  | case1 => rfl
  | case2 c ts ih =>
    rw [render, lexFrom, if_neg h.1, ih h.2]
    rfl
  | case3 s =>
    rw [render, List.cons_append, lexFrom, if_pos rfl, lexFrom_escape]
    rfl
  | case4 s c ts ih =>
    rw [render, List.cons_append, lexFrom, if_pos rfl, lexFrom_escape, render, lexFrom, if_neg h.1, ih h.2]
    rfl
  | case5 => exact h.elim

/-- **A text is read as tokens exactly when it is what they are written as.** -/
theorem lex_eq_some {s : List α} {ts : List (Token α)} :
    lex quote s = some ts ↔ s = render quote ts ∧ Readable quote ts := by
  constructor
  · intro h
    obtain ⟨hr, hread⟩ := lexFrom_some h
    exact ⟨hr.symm, hread⟩
  · rintro ⟨rfl, hread⟩
    exact lex_render hread

/-! ## Quotes -/

/-- **A text that can be read has two quotes for each literal, and two for each quote in one.** -/
theorem count_render {ts : List (Token α)} (h : Readable quote ts) : (render quote ts).count quote =
    2 * ((literals ts).length + (literals ts).flatten.count quote) := by
  induction ts using Readable.induct with
  | case1 => rfl
  | case2 c ts ih =>
    rw [render, List.count_cons_of_ne h.1, ih h.2]
    rfl
  | case3 s =>
    rw [render, List.cons_append, List.count_cons_self, List.count_append, count_escape]
    simp [render, literals]
    omega
  | case4 s c ts ih =>
    rw [render, render, List.cons_append, List.count_cons_self, List.count_append, count_escape, List.count_cons_self,
      List.count_cons_of_ne h.1, ih h.2, literals_lit, literals_chr, List.length_cons, List.flatten_cons,
      List.count_append]
    omega
  | case5 => exact h.elim

end

end QuotedText
