import Mathlib.Algebra.Ring.Nat
import Mathlib.Data.List.Basic
import Mathlib.Data.List.Forall2
/-!
# ShellWords — a command line and the words that a shell reads in it

The lexer of a simple command over any alphabet whose characters are classified by `kind`: a text is read character by
character into items (a character of a word, a blank between words, a quoting mark that is removed, or something that
is not part of a plain word: an operator, an expansion, a line continuation).  A command line is made of pieces, each a
word as it stands or between double quotes.  Nothing here names a program.
-/
namespace Shell

universe u

inductive Kind where
  | plain
  | blank
  | newline
  | operator
  | expansion
  | backslash
  | squote
  | dquote
  deriving DecidableEq, Repr

inductive Mode (α : Type u) where
  | bare
  | escaped
  | squoted
  | dquoted
  | dqPending (b : α)
  deriving DecidableEq, Repr

inductive Item (α : Type u) where
  | chr (c : α)
  | sep
  | mark (c : α)
  | special (c : α)
  deriving DecidableEq, Repr

variable {α : Type u}

section
variable (kind : α → Kind)

/-- What a character is, and the mode behind it.  A backslash between double quotes waits for what follows it. -/
def step : Mode α → α → Mode α × List (Item α)
  | .bare, c => match kind c with
    | .plain => (.bare, [.chr c])
    | .blank => (.bare, [.sep])
    | .newline | .operator | .expansion => (.bare, [.special c])
    | .backslash => (.escaped, [.mark c])
    | .squote => (.squoted, [.mark c])
    | .dquote => (.dquoted, [.mark c])
  | .escaped, c => if kind c = .newline then (.bare, [.special c]) else (.bare, [.chr c])
  | .squoted, c => if kind c = .squote then (.bare, [.mark c]) else (.squoted, [.chr c])
  | .dquoted, c => match kind c with
    | .dquote => (.bare, [.mark c])
    | .expansion => (.dquoted, [.special c])
    | .backslash => (.dqPending c, [])
    | _ => (.dquoted, [.chr c])
  | .dqPending b, c => match kind c with
    | .dquote | .backslash | .expansion => (.dquoted, [.mark b, .chr c])
    | .newline => (.dquoted, [.special b, .special c])
    | _ => (.dquoted, [.chr b, .chr c])

def lex : Mode α → List α → Mode α × List (Item α)
  | m, [] => (m, [])
  | m, c :: s => ((lex (step kind m c).1 s).1, (step kind m c).2 ++ (lex (step kind m c).1 s).2)

end

/-- The words of a list of items; `cur` is what has been read of a word that has begun. -/
def words : Option (List α) → List (Item α) → Option (List (List α))
  | cur, [] => some cur.toList
  | cur, .chr c :: is => words (some (cur.getD [] ++ [c])) is
  | cur, .mark _ :: is => words (some (cur.getD [])) is
  | cur, .sep :: is => (words none is).map (cur.toList ++ ·)
  | _, .special _ :: _ => none

/-- The words of a text that is one simple command without expansions. -/
def read (kind : α → Kind) (s : List α) : Option (List (List α)) :=
  match lex kind .bare s with
  | (.bare, is) => words none is
  | _ => none

/-! ## Counting items -/

namespace Item

def chr? : Item α → Option α
  | .chr c => some c
  | _ => none

def isSep : Item α → Bool
  | .sep => true
  | _ => false

def isMark : Item α → Bool
  | .mark _ => true
  | _ => false

def isSpecial : Item α → Bool
  | .special _ => true
  | _ => false

/-- A mark of the class of double quotes. -/
def isDquote (kind : α → Kind) : Item α → Bool
  | .mark c => kind c = .dquote
  | _ => false

/-- An item that no backslash and no single quote has a part in. -/
def Tame (kind : α → Kind) : Item α → Prop
  | .chr _ | .sep => True
  | .mark c => kind c = .dquote
  | .special _ => False

end Item

def chrs (is : List (Item α)) : List α := is.filterMap Item.chr?
def seps (is : List (Item α)) : Nat := is.countP Item.isSep
def marks (is : List (Item α)) : Nat := is.countP Item.isMark

@[simp] theorem chrs_append (is js : List (Item α)) : chrs (is ++ js) = chrs is ++ chrs js := List.filterMap_append
@[simp] theorem seps_append (is js : List (Item α)) : seps (is ++ js) = seps is + seps js := List.countP_append


/-- Whether a word has begun behind the last blank. -/
def begun : Bool → List (Item α) → Bool
  | b, [] => b
  | _, .sep :: is => begun false is
  | _, _ :: is => begun true is

theorem begun_sep (is : List (Item α)) (b : Bool) : begun b (is ++ [.sep]) = false := by
  induction is generalizing b with
  | nil => rfl
  | cons i is ih => cases i <;> exact ih _

/-- **What a list of words says about its items**: their characters in turn, blanks between them, nothing special. -/
theorem words_some : ∀ {is : List (Item α)} {cur : Option (List α)} {ws : List (List α)}, words cur is = some ws →
    cur.getD [] ++ chrs is = ws.flatten ∧ ws.length ≤ seps is + (begun cur.isSome is).toNat ∧
      is.length = (chrs is).length + seps is + marks is ∧ ∀ i ∈ is, i.isSpecial = false
  | [], cur, ws, h => by
    cases h
    refine ⟨?_, ?_, rfl, fun i hi => absurd hi List.not_mem_nil⟩
    · cases cur <;> simp [chrs]
    · cases cur <;> simp [seps, begun]
  | .chr c :: is, cur, ws, h => by
    obtain ⟨h₁, h₂, h₃, h₄⟩ := words_some (show words _ is = some ws from h)
    refine ⟨?_, ?_, ?_, List.forall_mem_cons.2 ⟨rfl, h₄⟩⟩
    · rw [← h₁]
      simp [chrs, Item.chr?]
    · simpa [seps, begun, Item.isSep] using h₂
    · simp only [List.length_cons, chrs, seps, marks, List.filterMap_cons, List.countP_cons, Item.chr?, Item.isSep,
        Item.isMark] at h₃ ⊢
      simp only [Bool.false_eq_true, ↓reduceIte]
      omega
  | .mark c :: is, cur, ws, h => by
    obtain ⟨h₁, h₂, h₃, h₄⟩ := words_some (show words _ is = some ws from h)
    refine ⟨?_, ?_, ?_, List.forall_mem_cons.2 ⟨rfl, h₄⟩⟩
    · rw [← h₁]
      simp [chrs, List.filterMap_cons, Item.chr?]
    · simpa [seps, begun, Item.isSep] using h₂
    · simp only [List.length_cons, chrs, seps, marks, List.filterMap_cons, List.countP_cons, Item.chr?, Item.isSep,
        Item.isMark] at h₃ ⊢
      simp only [Bool.false_eq_true, ↓reduceIte]
      omega
  | .sep :: is, cur, ws, h => by
    obtain ⟨ws', hw, rfl⟩ := Option.map_eq_some_iff.1 h
    obtain ⟨h₁, h₂, h₃, h₄⟩ := words_some hw
    refine ⟨?_, ?_, ?_, List.forall_mem_cons.2 ⟨rfl, h₄⟩⟩
    · rw [List.flatten_append, ← h₁]
      cases cur <;> simp [chrs, List.filterMap_cons, Item.chr?]
    · have hc : cur.toList.length ≤ 1 := by cases cur <;> simp
      simp only [seps, List.countP_cons, Item.isSep, begun, ↓reduceIte, List.length_append, Option.isSome_none] at h₂ ⊢
      omega
    · simp only [List.length_cons, chrs, seps, marks, List.filterMap_cons, List.countP_cons, Item.chr?, Item.isSep,
        Item.isMark] at h₃ ⊢
      simp only [Bool.false_eq_true, ↓reduceIte]
      omega

section
variable (kind : α → Kind)

theorem lex_append : ∀ (s t : List α) (m : Mode α), lex kind m (s ++ t) =
    ((lex kind (lex kind m s).1 t).1, (lex kind m s).2 ++ (lex kind (lex kind m s).1 t).2)
  | [], _, _ => rfl
  | c :: s, t, m => by
    rw [List.cons_append, lex, lex, lex_append s t]
    dsimp only
    rw [List.append_assoc]

/-- The characters that wait: a backslash between double quotes. -/
def Mode.pending : Mode α → List α
  | .dqPending b => [b]
  | _ => []

/-- The double quotes of a text. -/
def dquotes (s : List α) : Nat := s.countP fun c => kind c = .dquote

theorem dquotes_cons (c : α) (s : List α) :
    dquotes kind (c :: s) = dquotes kind s + if kind c = .dquote then 1 else 0 := by
  simp only [dquotes, List.countP_cons, decide_eq_true_eq]

theorem dquotes_append (s t : List α) : dquotes kind (s ++ t) = dquotes kind s + dquotes kind t := List.countP_append

theorem dquotes_eq_zero {s : List α} : dquotes kind s = 0 ↔ ∀ c ∈ s, kind c ≠ .dquote := by
  simp [dquotes, List.countP_eq_zero]

/-- A mode that a run of the lexer can be in. -/
def Mode.Ok : Mode α → Prop
  | .dqPending b => kind b = .backslash
  | _ => True

/-- One character: an item for it, and for the one that waited. -/
theorem step_counts {m : Mode α} (hm : m.Ok kind) (c : α) : (step kind m c).1.Ok kind ∧
    (step kind m c).2.length + (step kind m c).1.pending.length = m.pending.length + 1 ∧
    ((∀ i ∈ (step kind m c).2, i.isSpecial = false) → dquotes kind (chrs (step kind m c).2) +
      (step kind m c).2.countP (Item.isDquote kind) = if kind c = .dquote then 1 else 0) := by
  cases m with
  | bare =>
    cases hk : kind c <;> simp [step, hk, Mode.Ok, Mode.pending, chrs, dquotes, List.filterMap_cons, Item.chr?,
      Item.isDquote, Item.isSpecial]
  | escaped =>
    by_cases hk : kind c = .newline
    · simp [step, hk, Mode.Ok, Mode.pending, Item.isSpecial]
    · simp [step, hk, Mode.Ok, Mode.pending, chrs, dquotes, List.countP_cons, Item.chr?, Item.isDquote]
  | squoted =>
    by_cases hk : kind c = .squote
    · simp [step, hk, Mode.Ok, Mode.pending, chrs, dquotes, List.filterMap_cons, Item.chr?, Item.isDquote]
    · simp [step, hk, Mode.Ok, Mode.pending, chrs, dquotes, List.countP_cons, Item.chr?, Item.isDquote]
  | dquoted =>
    cases hk : kind c <;> simp [step, hk, Mode.Ok, Mode.pending, chrs, dquotes, List.filterMap_cons, Item.chr?,
      Item.isDquote, Item.isSpecial]
  | dqPending b =>
    have hb : kind b = .backslash := hm
    cases hk : kind c <;> simp [step, hk, hb, Mode.Ok, Mode.pending, chrs, dquotes, List.filterMap_cons, Item.chr?,
      Item.isDquote, Item.isSpecial]

/-- **A text has an item for each of its characters**, and each of its double quotes is a character of a word or a
mark. -/
theorem lex_counts : ∀ (s : List α) {m : Mode α}, m.Ok kind → (lex kind m s).1.Ok kind ∧
    (lex kind m s).2.length + (lex kind m s).1.pending.length = m.pending.length + s.length ∧
    ((∀ i ∈ (lex kind m s).2, i.isSpecial = false) → dquotes kind (chrs (lex kind m s).2) +
      (lex kind m s).2.countP (Item.isDquote kind) = dquotes kind s)
  | [], m, hm => ⟨hm, Nat.add_comm .., fun _ => rfl⟩
  | c :: s, m, hm => by
    obtain ⟨h₁, h₂, h₃⟩ := step_counts kind hm c
    obtain ⟨h₁', h₂', h₃'⟩ := lex_counts s h₁
    rw [lex]
    refine ⟨h₁', ?_, fun hs => ?_⟩
    · dsimp only
      rw [List.length_append, List.length_cons]
      omega
    · have h := h₃ fun i hi => hs i (List.mem_append_left _ hi)
      have h' := h₃' fun i hi => hs i (List.mem_append_right _ hi)
      simp only [chrs_append, dquotes_append, dquotes_cons, List.countP_append] at h h' ⊢
      omega

/-! ## Runs without backslashes and single quotes -/

/-- The modes of such a run. -/
def Mode.Quiet : Mode α → Prop
  | .bare | .dquoted => True
  | .dqPending b => kind b = .backslash
  | _ => False

/-- Between double quotes. -/
def Mode.inside : Mode α → Bool
  | .dquoted | .dqPending _ => true
  | _ => false

theorem step_tame {m : Mode α} (hm : m.Quiet kind) {c : α} (ht : ∀ i ∈ (step kind m c).2, i.Tame kind) :
    (step kind m c).1.Quiet kind ∧ (∀ x ∈ chrs (step kind m c).2, kind x ≠ .dquote) ∧
      (step kind m c).1.inside = (m.inside ^^ decide (kind c = .dquote)) := by
  cases m with
  | bare =>
    cases hk : kind c <;> simp [step, hk, Item.Tame] at ht <;>
      simp [step, hk, Mode.Quiet, Mode.inside, chrs, Item.chr?]
  | escaped => exact hm.elim
  | squoted => exact hm.elim
  | dquoted =>
    cases hk : kind c <;> simp [step, hk, Item.Tame] at ht <;>
      simp [step, hk, Mode.Quiet, Mode.inside, chrs, Item.chr?]
  | dqPending b =>
    have hb : kind b = .backslash := hm
    cases hk : kind c <;> simp [step, hk, hb, Item.Tame] at ht <;>
      simp [step, hk, hb, Mode.Quiet, Mode.inside, chrs, Item.chr?]

/-- **Such a run has every double quote as a mark**, and is between quotes after an odd number of them. -/
theorem lex_tame : ∀ (s : List α) {m : Mode α}, m.Quiet kind → (∀ i ∈ (lex kind m s).2, i.Tame kind) →
    (lex kind m s).1.Quiet kind ∧ (∀ x ∈ chrs (lex kind m s).2, kind x ≠ .dquote) ∧
      (lex kind m s).1.inside = (m.inside ^^ decide (dquotes kind s % 2 = 1))
  | [], m, hm, _ => by
    refine ⟨hm, fun x hx => absurd hx List.not_mem_nil, ?_⟩
    simp [lex, dquotes]
  | c :: s, m, hm, ht => by
    rw [lex] at ht ⊢
    obtain ⟨h₁, h₂, h₃⟩ := step_tame kind hm fun i hi => ht i (List.mem_append_left _ hi)
    obtain ⟨h₁', h₂', h₃'⟩ := lex_tame s h₁ fun i hi => ht i (List.mem_append_right _ hi)
    refine ⟨h₁', fun x hx => ?_, ?_⟩
    · rw [chrs_append] at hx
      exact (List.mem_append.1 hx).elim (h₂ x) (h₂' x)
    · have hpar : ∀ n : Nat, (decide (kind c = .dquote) ^^ decide (n % 2 = 1)) =
          decide ((n + if kind c = .dquote then 1 else 0) % 2 = 1) := by
        intro n
        by_cases hn : n % 2 = 1 <;> by_cases hk : kind c = .dquote <;> simp [hn, hk] <;> omega
      dsimp only
      rw [h₃', h₃, Bool.xor_assoc, hpar, dquotes_cons]

end

/-! ## Pieces -/

/-- A word of a command line, as it stands or between double quotes. -/
inductive Piece (α : Type u) where
  | bare (w : List α)
  | quoted (w : List α)
  deriving DecidableEq, Repr

namespace Piece

def word : Piece α → List α
  | .bare w => w
  | .quoted w => w

def text (q : α) : Piece α → List α
  | .bare w => w
  | .quoted w => q :: (w ++ [q])

/-- The double quotes of its own. -/
def own : Piece α → Nat
  | .bare _ => 0
  | .quoted _ => 2

/-- The word that is read of it when nothing in it is special: none, where there is nothing to begin one. -/
def word? : Piece α → Option (List α)
  | .bare [] => none
  | .bare w => some w
  | .quoted w => some w

end Piece

section
variable (kind : α → Kind)

/-- What may follow a backslash between double quotes for it to stand for itself. -/
def Ordinary (c : α) : Prop := kind c ≠ .dquote ∧ kind c ≠ .backslash ∧ kind c ≠ .expansion ∧ kind c ≠ .newline

/-- The words that stand for themselves between double quotes. -/
def Quotable : List α → Prop
  | [] => True
  | c :: w =>
    kind c ≠ .dquote ∧ kind c ≠ .expansion ∧ (kind c = .backslash → ∃ d ∈ w.head?, Ordinary kind d) ∧ Quotable w

instance (c : α) : Decidable (Ordinary kind c) :=
  inferInstanceAs (Decidable (kind c ≠ .dquote ∧ kind c ≠ .backslash ∧ kind c ≠ .expansion ∧ kind c ≠ .newline))

instance decidableQuotable : DecidablePred (Quotable kind)
  | [] => isTrue trivial
  | c :: w =>
    have : Decidable (Quotable kind w) := decidableQuotable w
    inferInstanceAs (Decidable (kind c ≠ .dquote ∧ kind c ≠ .expansion ∧
      (kind c = .backslash → ∃ d ∈ w.head?, Ordinary kind d) ∧ Quotable kind w))

/-- The pieces in which nothing is special. -/
def Piece.Plain : Piece α → Prop
  | .bare w => ∀ c ∈ w, kind c = .plain
  | .quoted w => Quotable kind w

/-- The pieces that are read as the words they are made for. -/
def Piece.Safe : Piece α → Prop
  | .bare w => w ≠ [] ∧ ∀ c ∈ w, kind c = .plain
  | .quoted w => Quotable kind w

instance (p : Piece α) : Decidable (p.Safe kind) :=
  match p with
  | .bare [] => isFalse fun h => h.1 rfl
  | .bare (c :: w) =>
    decidable_of_iff (∀ x ∈ c :: w, kind x = .plain) ⟨fun h => ⟨List.cons_ne_nil c w, h⟩, fun h => h.2⟩
  | .quoted w => inferInstanceAs (Decidable (Quotable kind w))

end

/-- The command line of some pieces. -/
def line (sp q : α) : List (Piece α) → List α
  | [] => []
  | [p] => p.text q
  | p :: p' :: ps => p.text q ++ sp :: line sp q (p' :: ps)

theorem Piece.length_word_le (q : α) (p : Piece α) : p.word.length ≤ (p.text q).length := by
  cases p with
  | bare w => exact Nat.le_refl _
  | quoted w =>
    show w.length ≤ (q :: (w ++ [q])).length
    rw [List.length_cons, List.length_append]
    omega

/-- A line is as long as each word of it. -/
theorem length_word_le_line (sp q : α) {p : Piece α} : ∀ {ps : List (Piece α)}, p ∈ ps →
    p.word.length ≤ (line sp q ps).length
  | [_], h => List.mem_singleton.1 h ▸ p.length_word_le q
  | p₁ :: p₂ :: ps, h => by
    show _ ≤ (p₁.text q ++ sp :: line sp q (p₂ :: ps)).length
    rw [List.length_append, List.length_cons]
    rcases List.mem_cons.1 h with rfl | hmem
    · exact Nat.le_trans (p.length_word_le q) (Nat.le_add_right _ _)
    · have := length_word_le_line sp q hmem
      omega

section
variable {kind : α → Kind} {sp q : α} (hsp : kind sp = .blank) (hq : kind q = .dquote)
include hsp hq

/-! ## What the pieces are when a run is tame -/

omit hsp hq in
theorem bare_tame : ∀ {w : List α}, (∀ i ∈ (lex kind .bare w).2, i.Tame kind) → (∀ c ∈ w, kind c ≠ .dquote) →
    (lex kind .bare w).1 = .bare ∧ (∀ c ∈ w, kind c = .plain ∨ kind c = .blank) ∧
      (seps (lex kind .bare w).2 = 0 → ∀ c ∈ w, kind c = .plain)
  | [], _, _ => ⟨rfl, fun c hc => absurd hc List.not_mem_nil, fun _ c hc => absurd hc List.not_mem_nil⟩
  | c :: w, ht, hw => by
    have hc := hw c List.mem_cons_self
    rw [lex] at ht ⊢
    have hbare : (kind c = .plain ∨ kind c = .blank) ∧ (step kind .bare c).1 = .bare := by
      have ht' := fun i hi => ht i (List.mem_append_left _ hi)
      cases hk : kind c <;> simp [step, hk, Item.Tame] at ht' hc <;> simp [step, hk]
    rw [hbare.2] at ht ⊢
    obtain ⟨h₁, h₂, h₃⟩ := bare_tame (fun i hi => ht i (List.mem_append_right _ hi)) fun x hx =>
      hw x (List.mem_cons_of_mem _ hx)
    refine ⟨h₁, List.forall_mem_cons.2 ⟨hbare.1, h₂⟩, fun hs => ?_⟩
    rw [seps_append] at hs
    refine List.forall_mem_cons.2 ⟨?_, h₃ (by omega)⟩
    rcases hbare.1 with hk | hk
    · exact hk
    · simp [step, hk, seps, Item.isSep] at hs

omit hsp in
/-- The second half of a quoted piece, between the quotes and with a backslash waiting or not. -/
theorem quoted_tame : ∀ {w : List α}, (∀ c ∈ w, kind c ≠ .dquote) →
    ((∀ i ∈ (lex kind .dquoted (w ++ [q])).2, i.Tame kind) →
      (lex kind .dquoted (w ++ [q])).1 = .bare ∧ Quotable kind w) ∧
    ∀ b, kind b = .backslash → (∀ i ∈ (lex kind (.dqPending b) (w ++ [q])).2, i.Tame kind) →
      (lex kind (.dqPending b) (w ++ [q])).1 = .bare ∧ (∃ d ∈ w.head?, Ordinary kind d) ∧ Quotable kind w
  | [], _ => by
    constructor
    · intro _
      exact ⟨by simp [lex, step, hq], trivial⟩
    · intro b hb ht
      simp [lex, step, hq, hb, Item.Tame] at ht
  | c :: w, hw => by
    have hc := hw c List.mem_cons_self
    obtain ⟨ih, ihp⟩ := quoted_tame fun x hx => hw x (List.mem_cons_of_mem _ hx)
    constructor
    · intro ht
      rw [List.cons_append, lex] at ht ⊢
      have ht₁ := fun i hi => ht i (List.mem_append_left _ hi)
      have ht₂ := fun i hi => ht i (List.mem_append_right _ hi)
      by_cases hb : kind c = .backslash
      · have hstep : step kind .dquoted c = (.dqPending c, []) := by simp [step, hb]
        rw [hstep] at ht₂ ⊢
        obtain ⟨h₁, h₂, h₃⟩ := ihp c hb ht₂
        exact ⟨h₁, hc, by simp [hb], fun _ => h₂, h₃⟩
      · have hstep : kind c ≠ .expansion ∧ (step kind .dquoted c).1 = .dquoted := by
          cases hk : kind c <;> simp [step, hk, Item.Tame] at ht₁ hc hb <;> simp [step, hk]
        rw [hstep.2] at ht₂ ⊢
        obtain ⟨h₁, h₃⟩ := ih ht₂
        exact ⟨h₁, hc, hstep.1, fun h => absurd h hb, h₃⟩
    · intro b hb ht
      rw [List.cons_append, lex] at ht ⊢
      have ht₁ := fun i hi => ht i (List.mem_append_left _ hi)
      have ht₂ := fun i hi => ht i (List.mem_append_right _ hi)
      have hstep : Ordinary kind c ∧ (step kind (.dqPending b) c).1 = .dquoted := by
        unfold Ordinary
        cases hk : kind c <;> simp [step, hk, hb, Item.Tame] at ht₁ hc <;> simp [step, hk]
      rw [hstep.2] at ht₂ ⊢
      obtain ⟨h₁, h₃⟩ := ih ht₂
      exact ⟨h₁, ⟨c, rfl, hstep.1⟩, hc, hstep.1.2.2.1, fun h => absurd h hstep.1.2.1, h₃⟩

omit hsp in
theorem text_tame {p : Piece α} (ht : ∀ i ∈ (lex kind .bare (p.text q)).2, i.Tame kind)
    (hw : ∀ c ∈ p.word, kind c ≠ .dquote) : (lex kind .bare (p.text q)).1 = .bare ∧
      (seps (lex kind .bare (p.text q)).2 = 0 → p.Plain kind) := by
  cases p with
  | bare w =>
    obtain ⟨h₁, -, h₃⟩ := bare_tame ht hw
    exact ⟨h₁, h₃⟩
  | quoted w =>
    have hstep : step kind .bare q = (.dquoted, [.mark q]) := by simp [step, hq]
    have hlex : lex kind .bare (Piece.text q (.quoted w)) =
        ((lex kind .dquoted (w ++ [q])).1, .mark q :: (lex kind .dquoted (w ++ [q])).2) := by
      rw [Piece.text, lex, hstep]
      rfl
    rw [hlex] at ht ⊢
    obtain ⟨h₁, h₂⟩ := (quoted_tame hq hw).1 fun i hi => ht i (List.mem_cons_of_mem _ hi)
    exact ⟨h₁, fun _ => h₂⟩

/-- **In a tame run over a line only its own blanks separate**, when there are no more separators than those. -/
theorem line_tame : ∀ (ps : List (Piece α)), (∀ i ∈ (lex kind .bare (line sp q ps)).2, i.Tame kind) →
    (∀ p ∈ ps, ∀ c ∈ p.word, kind c ≠ .dquote) → (lex kind .bare (line sp q ps)).1 = .bare ∧
      ps.length ≤ seps (lex kind .bare (line sp q ps)).2 + 1 ∧
      (seps (lex kind .bare (line sp q ps)).2 + 1 ≤ ps.length → ∀ p ∈ ps, p.Plain kind)
  | [], _, _ => ⟨rfl, Nat.zero_le _, fun _ p hp => absurd hp List.not_mem_nil⟩
  | [p], ht, hw => by
    obtain ⟨h₁, h₂⟩ := text_tame hq ht (hw p (List.mem_singleton_self p))
    refine ⟨h₁, Nat.le_add_left .., fun hs p' hp' => ?_⟩
    rw [List.mem_singleton.1 hp']
    exact h₂ (Nat.le_zero.1 (Nat.le_of_succ_le_succ hs))
  | p :: p' :: ps, ht, hw => by
    have hstep : step kind .bare sp = (.bare, [.sep]) := by simp [step, hsp]
    rw [line, lex_append, lex] at ht ⊢
    have ht₁ := fun i hi => ht i (List.mem_append_left _ hi)
    obtain ⟨h₁, h₂⟩ := text_tame hq ht₁ (hw p List.mem_cons_self)
    rw [h₁, hstep] at ht ⊢
    obtain ⟨h₁', h₂', h₃'⟩ := line_tame (p' :: ps)
      (fun i hi => ht i (List.mem_append_right _ (List.mem_cons_of_mem _ hi)))
      fun x hx => hw x (List.mem_cons_of_mem _ hx)
    dsimp only
    simp only [seps_append]
    rw [show seps ([.sep] : List (Item α)) = 1 from rfl]
    refine ⟨h₁', ?_, fun hs => ?_⟩
    · rw [List.length_cons]
      omega
    · rw [List.length_cons] at hs
      exact List.forall_mem_cons.2 ⟨h₂ (by omega), h₃' (by omega)⟩

/-! ## Reading a line back -/

omit hsp hq in
theorem words_chrs (w : List α) : ∀ (cur : Option (List α)) (is : List (Item α)),
    words cur (w.map Item.chr ++ is) = words (if w = [] then cur else some (cur.getD [] ++ w)) is := by
  induction w with
  | nil => exact fun _ _ => rfl
  | cons c w ih =>
    intro cur is
    rw [List.map_cons, List.cons_append, words, ih, if_neg (List.cons_ne_nil c w)]
    split
    · rename_i hw
      rw [hw]
    · rw [Option.getD_some, List.append_assoc, List.singleton_append]

omit hsp hq in
theorem lex_plain : ∀ {w : List α}, (∀ c ∈ w, kind c = .plain) → lex kind .bare w = (.bare, w.map Item.chr)
  | [], _ => rfl
  | c :: w, h => by
    have hc := h c List.mem_cons_self
    rw [lex, show step kind .bare c = (.bare, [.chr c]) by simp [step, hc],
      lex_plain fun x hx => h x (List.mem_cons_of_mem _ hx)]
    rfl

omit hsp in
theorem lex_quotable : ∀ {w : List α}, Quotable kind w →
    lex kind .dquoted (w ++ [q]) = (.bare, w.map Item.chr ++ [.mark q]) ∧
    ∀ b, (∃ d ∈ w.head?, Ordinary kind d) →
      lex kind (.dqPending b) (w ++ [q]) = (.bare, .chr b :: (w.map Item.chr ++ [.mark q]))
  | [], _ => by
    refine ⟨by simp [lex, step, hq], ?_⟩
    rintro b ⟨d, hd, -⟩
    cases hd
  | c :: w, hw => by
    obtain ⟨hc, he, hb, hw⟩ := hw
    obtain ⟨ih, ihp⟩ := lex_quotable hw
    constructor
    · rw [List.cons_append, lex]
      by_cases hk : kind c = .backslash
      · rw [show step kind .dquoted c = (.dqPending c, []) by simp [step, hk], ihp c (hb hk)]
        rfl
      · have hstep : step kind .dquoted c = (.dquoted, [.chr c]) := by
          cases hk' : kind c <;> simp [hk'] at hc he hk <;> simp [step, hk']
        rw [hstep, ih]
        rfl
    · rintro b ⟨d, hd, ho⟩
      cases hd
      obtain ⟨h₁, h₂, h₃, h₄⟩ := ho
      have hstep : step kind (.dqPending b) c = (.dquoted, [.chr b, .chr c]) := by
        cases hk' : kind c <;> simp [hk'] at h₁ h₂ h₃ h₄ <;> simp [step, hk']
      rw [List.cons_append, lex, hstep, ih]
      rfl

omit hsp in
/-- A piece in which nothing is special is read as its word. -/
theorem words_piece {p : Piece α} (hp : p.Plain kind) : ∃ is, lex kind .bare (p.text q) = (.bare, is) ∧
    ∀ js, words none (is ++ js) = words p.word? js := by
  cases p with
  | bare w =>
    refine ⟨_, lex_plain hp, fun js => ?_⟩
    rw [words_chrs]
    cases w with
    | nil => rfl
    | cons c w => rfl
  | quoted w =>
    refine ⟨.mark q :: (w.map Item.chr ++ [.mark q]), ?_, fun js => ?_⟩
    · rw [Piece.text, lex, show step kind .bare q = (.dquoted, [.mark q]) by simp [step, hq], (lex_quotable hq hp).1]
      rfl
    · rw [List.cons_append, List.append_assoc, words, words_chrs]
      cases w with
      | nil => rfl
      | cons c w => rfl

/-- **A line of plain pieces is read as their words**, where there is one to be read. -/
theorem read_line : ∀ (ps : List (Piece α)), (∀ p ∈ ps, p.Plain kind) →
    ∃ is, lex kind .bare (line sp q ps) = (.bare, is) ∧ words none is = some (ps.filterMap Piece.word?)
  | [], _ => ⟨[], rfl, rfl⟩
  | [p], h => by
    obtain ⟨is, hlex, hwords⟩ := words_piece hq (h p (List.mem_singleton_self p))
    refine ⟨is, hlex, ?_⟩
    rw [← List.append_nil is, hwords, words]
    cases hp : p.word? <;> simp [hp]
  | p :: p' :: ps, h => by
    obtain ⟨is, hlex, hwords⟩ := words_piece hq (h p List.mem_cons_self)
    obtain ⟨js, hlex', hwords'⟩ := read_line (p' :: ps) fun x hx => h x (List.mem_cons_of_mem _ hx)
    refine ⟨is ++ .sep :: js, ?_, ?_⟩
    · rw [line, lex_append, hlex, lex, show step kind .bare sp = (.bare, [.sep]) by simp [step, hsp], hlex']
      rfl
    · rw [hwords, words, hwords', Option.map_some]
      cases hp : p.word? <;> simp [List.filterMap_cons, hp]

/-! ## Cut lines -/

omit hsp hq in
theorem line_concat : ∀ {ps : List (Piece α)}, ps ≠ [] → ∀ p : Piece α,
    line sp q (ps ++ [p]) = line sp q ps ++ sp :: p.text q
  | [], h, _ => absurd rfl h
  | [_], _, _ => rfl
  | p₁ :: p₂ :: ps, _, p => by
    have ih := line_concat (List.cons_ne_nil p₂ ps) p
    rw [List.cons_append, List.cons_append, line, ← List.cons_append, ih, line, List.append_assoc, List.cons_append]

/-- The length and the double quotes of a line: those of its words, and its own. -/
theorem line_counts : ∀ {ps : List (Piece α)}, ps ≠ [] →
    (line sp q ps).length + 1 = (ps.map Piece.word).flatten.length + (ps.map Piece.own).sum + ps.length ∧
      dquotes kind (line sp q ps) = dquotes kind (ps.map Piece.word).flatten + (ps.map Piece.own).sum := by
  have hsp0 : dquotes kind [sp] = 0 := by simp [dquotes, hsp]
  have htext : ∀ p : Piece α, (p.text q).length = p.word.length + p.own ∧
      dquotes kind (p.text q) = dquotes kind p.word + p.own := by
    intro p
    cases p with
    | bare w => exact ⟨rfl, rfl⟩
    | quoted w =>
      constructor
      · simp [Piece.text, Piece.word, Piece.own]
      · simp [Piece.text, Piece.word, Piece.own, dquotes, hq]
  intro ps
  induction ps with
  | nil => exact fun h => absurd rfl h
  | cons p ps ih =>
    intro _
    obtain ⟨h₁, h₂⟩ := htext p
    cases ps with
    | nil => simp [line, h₁, h₂]
    | cons p' ps =>
      obtain ⟨ih₁, ih₂⟩ := ih (List.cons_ne_nil p' ps)
      simp only [line, List.length_append, List.length_cons, List.map_cons, List.flatten_cons, List.sum_cons,
        dquotes_append, dquotes_cons, hsp] at ih₁ ih₂ ⊢
      simp only [reduceCtorEq, ↓reduceIte]
      omega

omit hsp hq in
/-- Words that are cut: what is missing, and how many double quotes can be in it. -/
theorem cut_counts (kind : α → Kind) {ps : List (Piece α)} {ws : List (List α)}
    (h : List.Forall₂ (fun p w => p.word <+: w) ps ws) :
    ps.length = ws.length ∧ (ps.map Piece.word).flatten.length ≤ ws.flatten.length ∧
      dquotes kind ws.flatten + (ps.map Piece.word).flatten.length ≤
        dquotes kind (ps.map Piece.word).flatten + ws.flatten.length ∧
      (ws.flatten.length ≤ (ps.map Piece.word).flatten.length → ps.map Piece.word = ws) := by
  induction h with
  | nil => exact ⟨rfl, Nat.le_refl _, Nat.le_refl _, fun _ => rfl⟩
  | @cons p w ps ws hpw _ ih =>
    obtain ⟨h₁, h₂, h₃, h₄⟩ := ih
    obtain ⟨t, rfl⟩ := hpw
    have ht : dquotes kind t ≤ t.length := List.countP_le_length
    simp only [List.length_cons, List.map_cons, List.flatten_cons, List.length_append, dquotes_append] at h₃ ⊢
    refine ⟨by omega, by omega, by omega, fun hle => ?_⟩
    have h0 : t.length = 0 := by omega
    rw [List.eq_nil_of_length_eq_zero h0, List.append_nil, h₄ (by omega)]

omit hsp hq in
theorem own_even (ps : List (Piece α)) : (ps.map Piece.own).sum % 2 = 0 := by
  induction ps with
  | nil => rfl
  | cons p ps ih =>
    rw [List.map_cons, List.sum_cons]
    cases p with
    | bare w => exact (Nat.zero_add _).symm ▸ ih
    | quoted w =>
      show (2 + _) % 2 = 0
      omega

omit hsp hq in
/-- What stands in front of the last piece ends in a blank. -/
theorem line_last (ps : List (Piece α)) (p : Piece α) : ∃ pre, line sp q (ps ++ [p]) = pre ++ p.text q ∧
    (ps = [] ∧ pre = [] ∨ ∃ u, pre = u ++ [sp]) := by
  by_cases h : ps = []
  · rw [h]
    exact ⟨[], rfl, .inl ⟨rfl, rfl⟩⟩
  · refine ⟨line sp q ps ++ [sp], ?_, .inr ⟨_, rfl⟩⟩
    rw [line_concat h, List.append_assoc, List.singleton_append]

omit hq in
/-- A line that ends in two double quotes ends in an empty word between them. -/
theorem line_ends_empty {ps : List (Piece α)} (hw : ∀ p ∈ ps, ∀ c ∈ p.word, kind c ≠ .dquote) {s x : List α}
    (hline : line sp q ps = s ++ x) (hx : ∀ c ∈ x, kind c = .dquote) (hlen : 2 ≤ x.length) :
    s = [] ∧ ps.length = 1 ∨ ∃ u, s = u ++ [sp] := by
  obtain ⟨x₁, b, rfl⟩ := (List.eq_nil_or_concat' x).resolve_left fun h => by simp [h] at hlen
  obtain ⟨x₂, a, rfl⟩ := (List.eq_nil_or_concat' x₁).resolve_left fun h => by simp [h] at hlen
  have ha := hx a (by simp)
  have hb := hx b (by simp)
  obtain ⟨ps₁, p, rfl⟩ := (List.eq_nil_or_concat' ps).resolve_left fun h => by simp [h, line] at hline
  have hwp := hw p (List.mem_append_right _ (List.mem_singleton_self p))
  obtain ⟨pre, hpre, hblank⟩ : ∃ pre, line sp q (ps₁ ++ [p]) = pre ++ p.text q ∧ _ := line_last ps₁ p
  have hend : ∀ {l : List α} {c : α}, pre = l ++ [c] → kind c ≠ .dquote := by
    rintro l c rfl hc
    rcases hblank with ⟨-, h⟩ | ⟨u, h⟩
    · exact absurd h (by simp)
    · have := (List.append_inj' h rfl).2
      rw [List.singleton_inj.1 this, hsp] at hc
      cases hc
  rw [hpre] at hline
  cases p with
  | bare w =>
    rw [Piece.text, ← List.append_assoc, ← List.append_assoc] at hline
    rcases List.eq_nil_or_concat' w with rfl | ⟨w', c, rfl⟩
    · rw [List.append_nil] at hline
      exact absurd hb (hend hline)
    · rw [← List.append_assoc] at hline
      have hc := List.singleton_inj.1 (List.append_inj' hline rfl).2
      exact absurd (hc ▸ hb) (hwp c (List.mem_append_right _ (List.mem_singleton_self c)))
  | quoted w =>
    rw [Piece.text, ← List.cons_append, ← List.append_assoc, ← List.append_assoc, ← List.append_assoc] at hline
    have hline₁ := (List.append_inj' hline rfl).1
    rcases List.eq_nil_or_concat' w with rfl | ⟨w', c, rfl⟩
    · have hs := (List.append_inj' hline₁ rfl).1
      rcases List.eq_nil_or_concat' x₂ with rfl | ⟨x₃, d, rfl⟩
      · rw [List.append_nil] at hs
        rw [← hs]
        exact hblank.imp_left fun h => ⟨h.2, by rw [h.1]; rfl⟩
      · rw [← List.append_assoc] at hs
        exact absurd (hx d (by simp)) (hend hs)
    · rw [← List.cons_append, ← List.append_assoc] at hline₁
      have hc := List.singleton_inj.1 (List.append_inj' hline₁ rfl).2
      exact absurd (hc ▸ ha) (hwp c (List.mem_append_right _ (List.mem_singleton_self c)))

omit hsp hq in
/-- A tame run that ends in bare text has closed every quote. -/
theorem dquotes_even {s : List α} {is : List (Item α)} (hlex : lex kind .bare s = (.bare, is))
    (ht : ∀ i ∈ is, i.Tame kind) : dquotes kind s % 2 = 0 := by
  have h := (lex_tame kind s (m := .bare) trivial (by rw [hlex]; exact ht)).2.2
  rw [hlex] at h
  have hodd : decide (dquotes kind s % 2 = 1) = false := by simpa [Mode.inside] using h.symm
  have := of_decide_eq_false hodd
  omega

omit hq in
/-- A text that ends in a blank has a word less. -/
theorem words_blank_end {u : List α} {is : List (Item α)} {ws : List (List α)}
    (hlex : lex kind .bare (u ++ [sp]) = (.bare, is)) (ht : ∀ i ∈ is, i.Tame kind) (hwords : words none is = some ws) :
    ws.length ≤ seps is := by
  rw [lex_append] at hlex
  obtain ⟨hmode, rfl⟩ := Prod.mk.inj hlex
  have hquiet := (lex_tame kind u (m := .bare) trivial fun i hi => ht i (List.mem_append_left _ hi)).1
  have hsep : (lex kind (lex kind .bare u).1 [sp]).2 = [.sep] := by
    cases hm : (lex kind .bare u).1 with
    | bare => simp [lex, step, hsp]
    | escaped =>
      rw [hm] at hquiet
      exact hquiet.elim
    | squoted =>
      rw [hm] at hquiet
      exact hquiet.elim
    | dquoted =>
      rw [hm] at hmode
      simp [lex, step, hsp] at hmode
    | dqPending b =>
      rw [hm] at hmode
      simp [lex, step, hsp] at hmode
  have hle := (words_some hwords).2.1
  rw [hsep, begun_sep, Bool.toNat_false, Nat.add_zero, ← hsep] at hle
  exact hle

/-- **A line that lost only quotes has lost none**: the quotes of a last empty word would go together, and the word with
them. -/
theorem nothing_cut {ps : List (Piece α)} (hw : ∀ p ∈ ps, ∀ c ∈ p.word, kind c ≠ .dquote) {s x : List α}
    {is : List (Item α)} {ws : List (List α)} (hline : line sp q ps = s ++ x) (hx : ∀ c ∈ x, kind c = .dquote)
    (hlex : lex kind .bare s = (.bare, is)) (ht : ∀ i ∈ is, i.Tame kind) (hwords : words none is = some ws)
    (hlen : ps.length = ws.length) (hseps : seps is + 1 ≤ ws.length) : x = [] := by
  by_contra hne
  have hps : ps ≠ [] := by
    rintro rfl
    exact hne (List.append_eq_nil_iff.1 hline.symm).2
  have hx0 : dquotes kind x = x.length := List.countP_eq_length.2 fun c hc => decide_eq_true (hx c hc)
  have hw0 : dquotes kind (ps.map Piece.word).flatten = 0 := by
    rw [dquotes_eq_zero]
    intro c hc
    obtain ⟨w, hwm, hcw⟩ := List.mem_flatten.1 hc
    obtain ⟨p, hp, rfl⟩ := List.mem_map.1 hwm
    exact hw p hp c hcw
  -- an even number of quotes is left, so an even number of them is lost
  have heven := dquotes_even hlex ht
  have hcount := (line_counts hsp hq hps).2
  rw [hline, dquotes_append, hw0, hx0] at hcount
  have hown := own_even ps
  have hpos := List.length_pos_of_ne_nil hne
  rcases line_ends_empty hsp hw hline hx (by omega) with ⟨rfl, hone⟩ | ⟨u, rfl⟩
  · cases hlex
    cases hwords
    rw [hone] at hlen
    cases hlen
  · have hle := words_blank_end hsp hlex ht hwords
    omega

omit hsp hq in
theorem dquotes_le_marks (is : List (Item α)) : is.countP (Item.isDquote kind) ≤ marks is := by
  apply List.countP_mono_left
  intro i _ hi
  cases i with
  | mark c => rfl
  | chr c => cases hi
  | sep => cases hi
  | special c => cases hi

omit hsp hq in
theorem tame_of_marks {is : List (Item α)} (hs : ∀ i ∈ is, i.isSpecial = false)
    (hm : marks is ≤ is.countP (Item.isDquote kind)) : ∀ i ∈ is, i.Tame kind := by
  induction is with
  | nil => exact fun i hi => absurd hi List.not_mem_nil
  | cons i is ih =>
    obtain ⟨hi, hs⟩ := List.forall_mem_cons.1 hs
    have h : is.countP (Item.isDquote kind) ≤ marks is := dquotes_le_marks is
    simp only [marks, List.countP_cons] at hm h
    refine List.forall_mem_cons.2 ⟨?_, ih hs ?_⟩
    · cases i with
      | chr c => trivial
      | sep => trivial
      | special c => cases hi
      | mark c =>
        by_contra hc
        have hc' : ¬ kind c = .dquote := hc
        simp only [Item.isMark, Item.isDquote, hc', decide_false, Bool.false_eq_true, ↓reduceIte] at hm
        omega
    · have hone : (if i.isDquote kind = true then 1 else 0) ≤ if i.isMark = true then 1 else 0 := by
        cases i <;> simp [Item.isDquote, Item.isMark]
        split <;> omega
      unfold marks
      omega

omit hsp hq in
theorem Piece.Safe.plain {p : Piece α} (h : p.Safe kind) : p.Plain kind := by
  cases p with
  | bare w => exact h.2
  | quoted w => exact h

omit hsp hq in
theorem Piece.Safe.word? {p : Piece α} (h : p.Safe kind) : p.word? = some p.word := by
  cases p with
  | bare w =>
    cases w with
    | nil => exact absurd rfl h.1
    | cons c w => rfl
  | quoted w => rfl

omit hsp hq in
theorem Piece.Plain.safe {p : Piece α} (h : p.Plain kind) (hw : p.word?.isSome = true) : p.Safe kind := by
  cases p with
  | bare w =>
    refine ⟨?_, h⟩
    rintro rfl
    cases hw
  | quoted w => exact h

omit hsp hq in
theorem filterMap_word? {ps : List (Piece α)} (h : ∀ p ∈ ps, p.Safe kind) :
    ps.filterMap Piece.word? = ps.map Piece.word := by
  induction ps with
  | nil => rfl
  | cons p ps ih =>
    obtain ⟨hp, hps⟩ := List.forall_mem_cons.1 h
    rw [List.filterMap_cons, hp.word?, List.map_cons, ← ih hps]

/-- **The quotes of a line, the blanks between its pieces and the characters of its words leave no room** for another
reading of what is kept of it: every mark is a double quote, no word is cut, and only quotes are lost. -/
theorem read_tight {ps : List (Piece α)} (hps : ps ≠ []) {ws : List (List α)}
    (hcut : List.Forall₂ (fun p w => p.word <+: w) ps ws) {n : Nat} {is : List (Item α)}
    (hlex : lex kind .bare ((line sp q ps).take n) = (.bare, is)) (hwords : words none is = some ws) :
    (∀ i ∈ is, i.Tame kind) ∧ ps.map Piece.word = ws ∧ (∀ p ∈ ps, ∀ c ∈ p.word, kind c ≠ .dquote) ∧
      seps is + 1 ≤ ws.length ∧ ∀ c ∈ (line sp q ps).drop n, kind c = .dquote := by
  obtain ⟨hchrs, hwlen, hislen, hspec⟩ := words_some hwords
  have hbegun : (begun (none : Option (List α)).isSome is).toNat ≤ 1 := Bool.toNat_le _
  obtain ⟨-, hlen, hdq⟩ := lex_counts kind ((line sp q ps).take n) (m := .bare) trivial
  rw [hlex] at hlen hdq
  dsimp only at hlen hdq
  have hdq' := hdq hspec
  obtain ⟨hpslen, hle, hcutq, hfull⟩ := cut_counts kind hcut
  obtain ⟨hllen, hldq⟩ := line_counts hsp hq hps
  have hsplit := List.take_append_drop n (line sp q ps)
  have hlsplit := congrArg List.length hsplit
  have hqsplit := congrArg (dquotes kind) hsplit
  rw [List.length_append] at hlsplit
  rw [dquotes_append] at hqsplit
  have hdrop : dquotes kind ((line sp q ps).drop n) ≤ ((line sp q ps).drop n).length := List.countP_le_length
  have hchrs' : chrs is = ws.flatten := by simpa using hchrs
  rw [hchrs'] at hdq' hislen
  simp only [Mode.pending, List.length_nil] at hlen
  -- every mark is a double quote, so no character of a word is one
  have hmarks : marks is ≤ is.countP (Item.isDquote kind) := by omega
  have hmarks' : is.countP (Item.isDquote kind) ≤ marks is := dquotes_le_marks is
  have htame := tame_of_marks hspec hmarks
  have hnone := (lex_tame kind _ (m := .bare) trivial (by rw [hlex]; exact htame)).2.1
  rw [hlex] at hnone
  dsimp only at hnone
  rw [hchrs', ← dquotes_eq_zero] at hnone
  have hmap := hfull (by omega)
  refine ⟨htame, hmap, ?_, by omega, ?_⟩
  · rw [← hmap, dquotes_eq_zero] at hnone
    exact fun p hp c hc => hnone c (List.mem_flatten.2 ⟨_, List.mem_map.2 ⟨p, hp, rfl⟩, hc⟩)
  · have heq : dquotes kind ((line sp q ps).drop n) = ((line sp q ps).drop n).length := by omega
    exact fun c hc => of_decide_eq_true (List.countP_eq_length.1 heq c hc)

/-- **A line that may be cut is read as the words it is made for exactly when it is not cut, its pieces are those words
in full, and nothing in them is special**: the quotes of the line, the blanks between its pieces and the characters of
the words leave no room for any other reading. -/
theorem read_take_iff {ps : List (Piece α)} (hps : ps ≠ []) {ws : List (List α)}
    (hcut : List.Forall₂ (fun p w => p.word <+: w) ps ws) (n : Nat) :
    read kind ((line sp q ps).take n) = some ws ↔
      (line sp q ps).length ≤ n ∧ ps.map Piece.word = ws ∧ ∀ p ∈ ps, p.Safe kind := by
  constructor
  · intro hr
    obtain ⟨is, hlex, hwords⟩ :
        ∃ is, lex kind .bare ((line sp q ps).take n) = (.bare, is) ∧ words none is = some ws := by
      unfold read at hr
      split at hr
      · exact ⟨_, ‹_›, hr⟩
      · cases hr
    obtain ⟨htame, hmap, hw, hseps, hx⟩ := read_tight hsp hq hps hcut hlex hwords
    have hpslen : ps.length = ws.length := hcut.length_eq
    have hsplit := List.take_append_drop n (line sp q ps)
    have hnil := nothing_cut hsp hq hw hsplit.symm hx hlex htame hwords hpslen hseps
    rw [hnil, List.append_nil] at hsplit
    rw [hsplit] at hlex
    obtain ⟨-, -, hplain⟩ := line_tame hsp hq ps (by rw [hlex]; exact htame) hw
    rw [hlex] at hplain
    have hplain := hplain (by rw [hpslen]; exact hseps)
    obtain ⟨js, hjs, hread⟩ := read_line hsp hq ps hplain
    rw [hlex] at hjs
    cases hjs
    rw [hwords] at hread
    -- a piece without a word would leave one less
    have hall : ∀ p ∈ ps, p.word?.isSome = true := by
      rw [← List.countP_eq_length, ← List.length_filterMap_eq_countP, ← Option.some.inj hread]
      exact hpslen.symm
    exact ⟨List.drop_eq_nil_iff.1 hnil, hmap, fun p hp => (hplain p hp).safe (hall p hp)⟩
  · rintro ⟨hlen, rfl, hsafe⟩
    obtain ⟨is, hlex, hread⟩ := read_line hsp hq ps fun p hp => (hsafe p hp).plain
    rw [List.take_of_length_le hlen, read, hlex]
    dsimp only
    rw [hread, filterMap_word? hsafe]

end

end Shell
