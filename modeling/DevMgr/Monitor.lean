import DevMgr.Machine
/-!
# Monitor — a mutex and a condition variable

The state of a mutex and of one condition variable that is used with it, and the calls of threads `τ` on the two.  A
call is `ready` when it returns, `Legal` when its behaviour is defined, and `call` is what it does.  A wait is two
calls: it releases the mutex and blocks, and once it is woken, by a signal or by itself, it takes the mutex again.
-/
namespace Monitors

universe u

structure Monitor (τ : Type u) where
  mutexLive : Bool
  condLive : Bool
  holder : Option τ
  blocked : τ → Bool

inductive MonitorCall (τ : Type u) where
  | mutexInit
  | condInit
  | lock (t : τ)
  | unlock (t : τ)
  | wait (t : τ)
  | resume (t : τ)
  | signal (woken : τ)
  | wake (t : τ)
  | condDestroy
  | mutexDestroy

namespace Monitor

variable {τ : Type u} [DecidableEq τ]

/-- Neither of the two is initialised. -/
def dead : Monitor τ := ⟨false, false, none, fun _ => false⟩

def ready (m : Monitor τ) : MonitorCall τ → Bool
  | .lock _ => m.holder.isNone
  | .resume t => m.holder.isNone && !m.blocked t
  | _ => true

/-- The behaviour is defined: of a wait, a signal and a destruction, of a lock that is not held by its caller, of an
unlock by the holder. -/
def Legal (m : Monitor τ) : MonitorCall τ → Prop
  | .mutexInit => m.mutexLive = false
  | .condInit => m.condLive = false
  | .lock t => m.mutexLive = true ∧ m.holder ≠ some t
  | .unlock t => m.mutexLive = true ∧ m.holder = some t
  | .wait t => m.mutexLive = true ∧ m.condLive = true ∧ m.holder = some t
  | .resume t => m.mutexLive = true ∧ m.holder ≠ some t
  | .signal _ => m.condLive = true
  | .wake _ => True
  | .condDestroy => m.condLive = true ∧ ∀ t, m.blocked t = false
  | .mutexDestroy => m.mutexLive = true ∧ m.holder = none

instance [Fintype τ] (m : Monitor τ) : (c : MonitorCall τ) → Decidable (m.Legal c)
  | .mutexInit => inferInstanceAs (Decidable (m.mutexLive = false))
  | .condInit => inferInstanceAs (Decidable (m.condLive = false))
  | .lock t => inferInstanceAs (Decidable (m.mutexLive = true ∧ m.holder ≠ some t))
  | .unlock t => inferInstanceAs (Decidable (m.mutexLive = true ∧ m.holder = some t))
  | .wait t => inferInstanceAs (Decidable (m.mutexLive = true ∧ m.condLive = true ∧ m.holder = some t))
  | .resume t => inferInstanceAs (Decidable (m.mutexLive = true ∧ m.holder ≠ some t))
  | .signal _ => inferInstanceAs (Decidable (m.condLive = true))
  | .wake _ => inferInstanceAs (Decidable True)
  | .condDestroy => inferInstanceAs (Decidable (m.condLive = true ∧ ∀ t, m.blocked t = false))
  | .mutexDestroy => inferInstanceAs (Decidable (m.mutexLive = true ∧ m.holder = none))

def call (m : Monitor τ) : MonitorCall τ → Monitor τ
  | .mutexInit => { m with mutexLive := true, holder := none }
  | .condInit => { m with condLive := true, blocked := fun _ => false }
  | .lock t => { m with holder := some t }
  | .unlock _ => { m with holder := none }
  | .wait t => { m with holder := none, blocked := Function.update m.blocked t true }
  | .resume t => { m with holder := some t }
  | .signal woken => { m with blocked := Function.update m.blocked woken false }
  | .wake t => { m with blocked := Function.update m.blocked t false }
  | .condDestroy => { m with condLive := false }
  | .mutexDestroy => { m with mutexLive := false }

end Monitor
end Monitors
