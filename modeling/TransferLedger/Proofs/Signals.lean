import Mathlib.Tactic
import TransferLedger.Worker

/-!
# When shutdown is requested

Of all actions on a trigger only the first one counts: a trigger that is dropped first never fires,
and one that has fired stays so, whatever becomes of it.

* `Schedule.fired_channelAt_iff`: by a given time the trigger has fired exactly when its first
  action is to fire and the time of it has come;
* `Schedule.firesAt_of_never`: a trigger that is only dropped is never heard of;
* `Conditions.isTriggered_iff`, `Conditions.interruption_eq_none_iff`: what the two ways to look for
  shutdown find;
* `Conditions.still`: the same conditions without it.
-/

namespace TransferLedger

namespace Channel

/-- What has fired stays so. -/
theorem fired_foldl_of_fired (s : Schedule) {ch : Channel} (h : ch.fired = true) :
    (s.foldl (fun ch (_, a) => ch.apply a) ch).fired = true := by
  induction s generalizing ch with
  | nil => exact h
  | cons e s ih =>
    obtain ⟨_, a⟩ := e
    cases a with
    | fire => exact ih (by simp [apply, h])
    | drop => exact ih h

/-- A trigger that is dropped before it fires does not fire later. -/
theorem fired_foldl_of_dropped (s : Schedule) {ch : Channel} (hheld : ch.held = false)
    (hfired : ch.fired = false) : (s.foldl (fun ch (_, a) => ch.apply a) ch).fired = false := by
  induction s generalizing ch with
  | nil => exact hfired
  | cons e s ih =>
    obtain ⟨_, a⟩ := e
    cases a with
    | fire => exact ih hheld (by simp [apply, hheld, hfired])
    | drop => exact ih rfl hfired

end Channel

namespace Schedule

/-- Only the first action counts. -/
theorem fired_channelAt_iff (s : Schedule) (time : ℕ) :
    (s.channelAt time).fired = true ↔ ∃ t, s.firesAt = some t ∧ t ≤ time := by
  unfold channelAt
  cases s with
  | nil => simp [firesAt]
  | cons e s =>
    obtain ⟨t, a⟩ := e
    by_cases ht : t ≤ time
    · rw [List.takeWhile_cons_of_pos (by simpa using ht), List.foldl_cons]
      cases a with
      | fire =>
        rw [Channel.fired_foldl_of_fired _ (by simp [Channel.apply])]
        simpa [firesAt] using ht
      | drop =>
        rw [Channel.fired_foldl_of_dropped _ (by simp [Channel.apply]) (by simp [Channel.apply])]
        simp [firesAt]
    · rw [List.takeWhile_cons_of_neg (by simpa using ht)]
      cases a with
      | fire => simpa [firesAt] using ht
      | drop => simp [firesAt]

/-- A trigger that is only dropped, if anything, is never heard of. -/
theorem firesAt_of_never {s : Schedule} (h : ∀ e ∈ s, e.2 ≠ .fire) : s.firesAt = none := by
  cases s with
  | nil => rfl
  | cons e s =>
    obtain ⟨t, a⟩ := e
    cases a with
    | fire => exact absurd rfl (h _ List.mem_cons_self)
    | drop => rfl

end Schedule

namespace Conditions

variable {c : Conditions}

theorem isTriggered_iff (time : ℕ) :
    c.isTriggered time = true ↔ ∃ t, c.shutdown.firesAt = some t ∧ t ≤ time :=
  c.shutdown.fired_channelAt_iff time

/-- A wait is interrupted by the request, no later than at its end. -/
theorem of_interruption_eq_some {limit : Option ℕ} {t : ℕ} (h : c.interruption limit = some t) :
    c.shutdown.firesAt = some t ∧ ∀ l, limit = some l → t ≤ l := by
  unfold interruption at h
  cases hf : c.shutdown.firesAt with
  | none => simp [hf] at h
  | some time =>
    simp only [hf] at h
    split at h
    · rename_i hc
      obtain rfl := Option.some.inj h
      refine ⟨rfl, fun l hl => ?_⟩
      rw [Bool.and_eq_true] at hc
      simpa [hl] using hc.2
    · cases h

/-- What is waited for to its end, and watched, ends before the request. -/
theorem lt_of_interruption_eq_none {l t : ℕ} (h : c.interruption (some l) = none)
    (hl : c.covers l = true) (ht : c.shutdown.firesAt = some t) : l < t := by
  by_contra hle
  have hcovers : c.covers t = true := by
    cases hh : c.horizon with
    | none => simp [covers, hh]
    | some h =>
      simp only [covers, hh, decide_eq_true_eq] at hl ⊢
      omega
  simp [interruption, ht, hcovers, Nat.le_of_not_lt hle] at h

/-- Nothing interrupts a wait when shutdown is requested only behind its end. -/
theorem interruption_eq_none_iff (hc : c.horizon = none) (limit : Option ℕ) :
    c.interruption limit = none ↔
      ∀ t, c.shutdown.firesAt = some t → ∃ l, limit = some l ∧ l < t := by
  unfold interruption
  cases hf : c.shutdown.firesAt with
  | none => simp
  | some t =>
    cases limit with
    | none => simp [covers, hc]
    | some l => simp [covers, hc]

/-! ### Without shutdown -/

/-- The same conditions without a request for shutdown. -/
def still (c : Conditions) : Conditions := { c with shutdown := [] }

@[simp] theorem isTriggered_still (c : Conditions) (time : ℕ) :
    c.still.isTriggered time = false := rfl

@[simp] theorem interruption_still (c : Conditions) (limit : Option ℕ) :
    c.still.interruption limit = none := rfl

end Conditions

end TransferLedger
