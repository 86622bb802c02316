import Mathlib.Logic.Basic
/-!
# Objects — calls on an object, and the model that they refine

An object says what a call makes of its state and returns, or how it goes wrong, and which calls its callers may make.
A model answers every call.  An object refines a model when each allowed call, from states that are related, gives the
model's answer and leaves related states, or stops for a reason that is none of the object's; the rule for runs takes
that to every allowed list of calls.  Nothing here names a program.
-/
namespace Objects

universe u v w x y

structure Object (σ : Type u) (ι : Type v) (ο : Type w) (ε : Type x) where
  pre : σ → ι → Prop
  call : σ → ι → Except ε (σ × ο)

/-- A model: what a call makes of its state, and what it returns. -/
abbrev Model (τ : Type y) (ι : Type v) (ο : Type w) := τ → ι → τ × ο

namespace Object

variable {σ : Type u} {ι : Type v} {ο : Type w} {ε : Type x} {τ : Type y}

/-- The state after a list of calls, and what they return. -/
def run (O : Object σ ι ο ε) (s : σ) : List ι → Except ε (σ × List ο)
  | [] => .ok (s, [])
  | i :: is => match O.call s i with
    | .error e => .error e
    | .ok (s', o) => match O.run s' is with
      | .error e => .error e
      | .ok (s'', os) => .ok (s'', o :: os)

/-- Each of the calls is one that may be made when its turn comes. -/
def Allowed (O : Object σ ι ο ε) (s : σ) : List ι → Prop
  | [] => True
  | i :: is => O.pre s i ∧ match O.call s i with
    | .error _ => True
    | .ok (s', _) => O.Allowed s' is

instance decidableAllowed (O : Object σ ι ο ε) [∀ s i, Decidable (O.pre s i)] :
    ∀ (s : σ) (is : List ι), Decidable (O.Allowed s is)
  | _, [] => isTrue trivial
  | s, i :: is =>
    have : Decidable (match O.call s i with
        | .error _ => True
        | .ok (s', _) => O.Allowed s' is) :=
      match O.call s i with
      | .error _ => isTrue trivial
      | .ok (s', _) => decidableAllowed O s' is
    inferInstanceAs (Decidable (_ ∧ _))

/-- The object whose callers promise more. -/
def restrict (O : Object σ ι ο ε) (ok : σ → ι → Prop) : Object σ ι ο ε where
  pre s i := O.pre s i ∧ ok s i
  call := O.call

/-- A further promise changes what may be called, not what is done. -/
@[simp] theorem run_restrict (O : Object σ ι ο ε) (ok : σ → ι → Prop) (s : σ) (is : List ι) :
    (O.restrict ok).run s is = O.run s is := by
  induction is generalizing s with
  | nil => rfl
  | cons i is ih => simp only [run, ih]; rfl

end Object

namespace Model

variable {τ : Type y} {ι : Type v} {ο : Type w}

def run (A : Model τ ι ο) (t : τ) : List ι → τ × List ο
  | [] => (t, [])
  | i :: is => ((Model.run A (A t i).1 is).1, (A t i).2 :: (Model.run A (A t i).1 is).2)

end Model

variable {σ : Type u} {ι : Type v} {ο : Type w} {ε : Type x} {τ : Type y}

/-- An object that does as the model, except that it may stop at calls that the model tells. -/
def Refines (O : Object σ ι ο ε) (A : Model τ ι ο) (R : σ → τ → Prop) (stops : τ → ι → ε → Prop) : Prop :=
  ∀ s t i, R s t → O.pre s i →
    (∃ e, O.call s i = .error e ∧ stops t i e) ∨ ∃ s', O.call s i = .ok (s', (A t i).2) ∧ R s' (A t i).1

section
variable {O : Object σ ι ο ε} {A : Model τ ι ο} {R : σ → τ → Prop} {stops : τ → ι → ε → Prop}

/-- **The rule for runs**: what every allowed call does, every allowed list of calls does. -/
theorem Refines.run (h : Refines O A R stops) {is : List ι} : ∀ {s : σ} {t : τ}, R s t → O.Allowed s is →
    (∃ e before i after, is = before ++ i :: after ∧ stops (A.run t before).1 i e ∧ O.run s is = .error e) ∨
      ∃ s', O.run s is = .ok (s', (A.run t is).2) ∧ R s' (A.run t is).1 := by
  induction is with
  | nil => exact fun hr _ => .inr ⟨_, rfl, hr⟩
  | cons i is ih =>
    intro s t hr hp
    rw [Object.run]
    obtain ⟨e, he, hstop⟩ | ⟨s', hs', hr'⟩ := h s t i hr hp.1
    · rw [he]
      exact .inl ⟨e, [], i, is, rfl, hstop, rfl⟩
    · have hp' := hp.2
      rw [hs'] at hp' ⊢
      dsimp only at hp' ⊢
      obtain ⟨e, before, i', after, rfl, hstop, he⟩ | ⟨s'', hs'', hr''⟩ := ih hr' hp'
      · rw [he]
        exact .inl ⟨e, i :: before, i', after, rfl, hstop, rfl⟩
      · rw [hs'']
        exact .inr ⟨s'', rfl, hr''⟩

/-- An object that never stops. -/
theorem Refines.run_ok (h : Refines O A R fun _ _ _ => False) {s : σ} {t : τ} {is : List ι} (hr : R s t)
    (hp : O.Allowed s is) : ∃ s', O.run s is = .ok (s', (A.run t is).2) ∧ R s' (A.run t is).1 :=
  (h.run hr hp).resolve_left fun ⟨_, _, _, _, _, hstop, _⟩ => hstop

/-- A run that breaks the further promise goes wrong, when each call that breaks it does. -/
theorem Object.run_of_not_restrict {ok : σ → ι → Prop} {e : ε}
    (h : ∀ s i, O.pre s i → ¬ ok s i → O.call s i = .error e) {is : List ι} :
    ∀ {s : σ}, O.Allowed s is → ¬ (O.restrict ok).Allowed s is → O.run s is = .error e := by
  induction is with
  | nil => exact fun _ hn => absurd trivial hn
  | cons i is ih =>
    intro s hp hn
    rw [Object.run]
    by_cases hok : ok s i
    · have hp' := hp.2
      have hn' : ¬ match O.call s i with
          | .error _ => True
          | .ok (s', _) => (O.restrict ok).Allowed s' is := fun ha => hn ⟨⟨hp.1, hok⟩, ha⟩
      cases hc : O.call s i with
      | error e' =>
        rw [hc] at hn'
        exact absurd trivial hn'
      | ok r =>
        rw [hc] at hp' hn'
        dsimp only at hp' hn' ⊢
        rw [ih hp' hn']
    · rw [h s i hp.1 hok]

end

end Objects
