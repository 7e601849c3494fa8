import Mathlib.Order.Interval.Finset.Nat

/-!
# Runs of consecutive days

Some of the days, numbered from 0, are *on*, and some are *seen*. `streak on seen d` counts
how many on days in a row, up to and including `d`, are seen; days that are not on neither
count nor interrupt.
-/

namespace NiftyShield.Lib

variable {on seen seen' : ℕ → Bool}

/-- The number of consecutive on days up to and including a day that are seen. -/
def streak (on seen : ℕ → Bool) : ℕ → ℕ
  | 0 => if on 0 && seen 0 then 1 else 0
  | d + 1 => if on (d + 1) then if seen (d + 1) then streak on seen d + 1 else 0 else streak on seen d

/-- The streak of the days before a day. -/
def streakBefore (on seen : ℕ → Bool) : ℕ → ℕ
  | 0 => 0
  | d + 1 => streak on seen d

theorem streak_of_seen {d : ℕ} (hon : on d = true) (hseen : seen d = true) :
    streak on seen d = streakBefore on seen d + 1 := by
  cases d with
  | zero => simp [streak, streakBefore, hon, hseen]
  | succ d => simp [streak, streakBefore, hon, hseen]

theorem streak_of_unseen {d : ℕ} (hon : on d = true) (hseen : seen d = false) :
    streak on seen d = 0 := by
  cases d with
  | zero => simp [streak, hseen]
  | succ d => simp [streak, hon, hseen]

theorem streak_succ_of_off {d : ℕ} (hoff : on (d + 1) = false) :
    streak on seen (d + 1) = streak on seen d := by
  simp [streak, hoff]

/-- Only the days up to the day matter. -/
theorem streak_congr : ∀ {d : ℕ}, (∀ e ≤ d, seen e = seen' e) →
    streak on seen d = streak on seen' d
  | 0, h => by rw [streak, streak, h 0 le_rfl]
  | d + 1, h => by
    rw [streak, streak, h (d + 1) le_rfl, streak_congr fun e he => h e (he.trans (Nat.le_succ d))]

theorem streakBefore_congr {d : ℕ} (h : ∀ e < d, seen e = seen' e) :
    streakBefore on seen d = streakBefore on seen' d := by
  cases d with
  | zero => rfl
  | succ d => exact streak_congr fun e he => h e (Nat.lt_succ_of_le he)

/-- Over days none of which is on, a streak stays. -/
theorem streak_of_all_off {a b : ℕ} (hab : a ≤ b) :
    (∀ d ∈ Finset.Ioc a b, on d = false) → streak on seen b = streak on seen a := by
  induction b, hab using Nat.le_induction with
  | base => exact fun _ => rfl
  | succ b hab ih =>
    intro h
    rw [streak_succ_of_off (h (b + 1) (Finset.mem_Ioc.mpr ⟨by omega, le_rfl⟩))]
    refine ih fun d hd => h d ?_
    rw [Finset.mem_Ioc] at hd ⊢
    omega

/-- An unseen on day, and no seen day after it, leave no streak. -/
theorem streak_eq_zero {a b : ℕ} (hab : a ≤ b) (hunseen : ∀ d ∈ Finset.Ioc a b, seen d = false)
    (hon : ∃ d ∈ Finset.Ioc a b, on d = true) : streak on seen b = 0 := by
  induction b, hab using Nat.le_induction with
  | base => simp at hon
  | succ b hab ih =>
    have hlast := hunseen (b + 1) (Finset.mem_Ioc.mpr ⟨by omega, le_rfl⟩)
    cases hb : on (b + 1) with
    | true => exact streak_of_unseen hb hlast
    | false =>
      obtain ⟨d, hd, hond⟩ := hon
      have hne : d ≠ b + 1 := fun h => by simp [← h, hond] at hb
      rw [Finset.mem_Ioc] at hd
      rw [streak_succ_of_off hb]
      refine ih (fun e he => hunseen e ?_) ⟨d, Finset.mem_Ioc.mpr ⟨hd.1, by omega⟩, hond⟩
      rw [Finset.mem_Ioc] at he ⊢
      omega

/-- **A day with nothing seen since**: a streak is still what it was exactly when it was zero
or no on day has passed. -/
theorem streak_kept_iff {a b : ℕ} (hab : a ≤ b) (hunseen : ∀ d ∈ Finset.Ioc a b, seen d = false) :
    streak on seen a = streak on seen b ↔
      streak on seen a = 0 ∨ ∀ d ∈ Finset.Ioc a b, on d = false := by
  by_cases hoff : ∀ d ∈ Finset.Ioc a b, on d = false
  · exact ⟨fun _ => Or.inr hoff, fun _ => (streak_of_all_off hab hoff).symm⟩
  · have hon : ∃ d ∈ Finset.Ioc a b, on d = true := by
      push Not at hoff
      obtain ⟨d, hd, hne⟩ := hoff
      exact ⟨d, hd, by simpa using hne⟩
    rw [streak_eq_zero hab hunseen hon]
    exact ⟨Or.inl, fun h => h.resolve_right hoff⟩

/-! ### At the front of a list -/

section Front

variable {α : Type*} {p q : α → Bool}

/-- A weaker condition holds for as long, and for no longer if it fails where the stronger does. -/
theorem length_takeWhile_eq_iff (hpq : ∀ a, p a = true → q a = true) : ∀ l : List α,
    (l.takeWhile p).length ≤ (l.takeWhile q).length ∧
      ((l.takeWhile q).length = (l.takeWhile p).length ↔ ∀ a, (l.dropWhile p).head? = some a → q a = false)
  | [] => by simp
  | a :: l => by
    obtain ⟨hle, heq⟩ := length_takeWhile_eq_iff hpq l
    cases hp : p a with
    | true =>
      rw [List.takeWhile_cons_of_pos hp, List.takeWhile_cons_of_pos (hpq a hp), List.dropWhile_cons_of_pos hp,
        List.length_cons, List.length_cons]
      exact ⟨Nat.succ_le_succ hle, by rw [← heq]; exact Nat.succ_inj⟩
    | false =>
      have hp' : ¬ p a = true := by simp [hp]
      rw [List.takeWhile_cons_of_neg hp', List.dropWhile_cons_of_neg hp']
      cases hq : q a with
      | true => simp [List.takeWhile_cons_of_pos hq, hq]
      | false =>
        have hq' : ¬ q a = true := by simp [hq]
        simp [List.takeWhile_cons_of_neg hq', hq]

/-- A count of the weaker condition that stops at a limit is that of the stronger. -/
theorem min_length_takeWhile_iff (hpq : ∀ a, p a = true → q a = true) (limit : ℕ) (l : List α) :
    min limit (l.takeWhile q).length = (l.takeWhile p).length ↔
      (l.takeWhile p).length = limit ∨
        (l.takeWhile p).length < limit ∧ ∀ a, (l.dropWhile p).head? = some a → q a = false := by
  obtain ⟨hle, heq⟩ := length_takeWhile_eq_iff hpq l
  rw [← heq]
  omega

end Front

end NiftyShield.Lib
