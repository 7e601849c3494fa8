import NiftyShield.Lib.Run
import Mathlib.Algebra.Order.Field.Rat
import Mathlib.Algebra.Order.Group.Abs
import Mathlib.Tactic.Linarith

/-!
# The throttle shared by every process

`SharedRateLimiter.acquire` (`src/client/shared_rate_limiter.py`) spaces the calls of all
processes by a lock file and a file with the time of the last grant. A caller takes the lock,
reads the clock and the stamp, sleeps for what is missing of the spacing, reads the clock again
and replaces the stamp. Here any number of calls, of any limiters and processes, take their
steps in any order, and a call may fail and a process crash at any step.

## What is proved

* `owner_step`: the calls between taking and dropping the lock are those that hold it, so there
  is one at most, and the lock is never held by a call that is gone (`not_wedged`);
* `grants_spaced`: the stamps of any two grants are at least the spacing apart, and the stamp
  file never goes back.

## Honest scope

Times are exact rationals: the rounding of `float` is left out. The stamp that a run starts
with, if there is one, was written under the same clock. All limiters of the directory have the
same spacing, as the factory gives them. Creating the directory is left out.
-/

namespace NiftyShield.Client.SharedRateLimiter

open NiftyShield.Lib

/-! ### The code -/

/-- The limiters of one state directory: `κ` names them, `π` their processes. -/
structure Config (ι κ π : Type) where
  /-- `spacing`. -/
  spacing : ℚ
  /-- `spacing must be positive`. -/
  spacing_pos : 0 < spacing
  /-- The limiter that a call of `acquire` is made on. -/
  limiter : ι → κ
  /-- The process a limiter lives in. -/
  process : κ → π
  /-- `poll_s`. -/
  pollS : κ → ℚ
  /-- `lock_timeout_s`. -/
  lockTimeoutS : κ → ℚ

/-- How far a call of `acquire` has come. -/
inductive Pc where
  /-- Not called yet. -/
  | idle
  /-- Waits for the lock of its limiter (`async with self._lock`). -/
  | queued
  /-- About to try the lock file. -/
  | taking (deadline : ℚ)
  /-- `BlockingIOError`. -/
  | refused (deadline : ℚ)
  /-- Sleeps before the next try. -/
  | polling (deadline wake : ℚ)
  /-- Has the lock file. -/
  | locked
  /-- `now = self._clock.time()`. -/
  | reading (now : ℚ)
  /-- About to sleep. -/
  | waiting (seconds : ℚ)
  /-- Sleeps. -/
  | sleeping (wake : ℚ)
  /-- About to read the clock for the stamp. -/
  | stamping
  /-- `_write_last(value)`. -/
  | writing (value : ℚ)
  /-- The temporary file is open, and empty. -/
  | opened (value : ℚ)
  /-- The temporary file is written. -/
  | written (value : ℚ)
  /-- The stamp is replaced. -/
  | closing (value : ℚ)
  /-- The lock file is closed. -/
  | leaving (value : ℚ)
  /-- `acquire` has returned. -/
  | returned (value : ℚ)
  /-- `acquire` has raised. -/
  | failed
  /-- The process is gone. -/
  | crashed
  deriving DecidableEq

/-- The calls and the files they share. -/
structure World (ι κ : Type) where
  /-- The clock. -/
  clock : ℚ
  /-- The stamp, `none` if the file is missing or unreadable. -/
  stamp : Option ℚ
  /-- The temporary file. -/
  tmp : Option ℚ
  /-- The call whose descriptor has the `flock`. -/
  holder : Option ι
  /-- The call inside each limiter's own lock. -/
  inside : κ → Option ι
  /-- The calls. -/
  pc : ι → Pc

/-- What happens next. -/
inductive Event (ι π : Type) where
  /-- Time passes. -/
  | tick (time : ℚ)
  /-- A call takes its next step, if it can. -/
  | move (i : ι)
  /-- An exception or a cancellation ends a call. -/
  | raises (i : ι)
  /-- A process dies. -/
  | crash (p : π)

namespace Pc

/-- The call is under way. -/
def active : Pc → Bool
  | idle | returned _ | failed | crashed => false
  | _ => true

/-- The call has the lock file. -/
def holds : Pc → Bool
  | locked | reading _ | waiting _ | sleeping _ | stamping | writing _ | opened _ | written _ | closing _ => true
  | _ => false

/-- The stamp that the call has put in place. -/
def stamped : Pc → Option ℚ
  | closing v | leaving v | returned v => some v
  | _ => none

end Pc

section Step

variable {ι κ π : Type} [DecidableEq ι] [DecidableEq κ] (c : Config ι κ π)

namespace World

/-- The call goes on to its next step. -/
def goto (s : World ι κ) (i : ι) (pc : Pc) : World ι κ := { s with pc := Function.update s.pc i pc }

/-- The call drops its limiter's own lock. -/
def leave (s : World ι κ) (i : ι) : World ι κ :=
  { s with inside := Function.update s.inside (c.limiter i) none }

/-- `finally`: the descriptor is closed, and the limiter's own lock dropped. -/
def unwind (s : World ι κ) (i : ι) : World ι κ :=
  { s.goto i .failed with
    holder := if s.holder = some i then none else s.holder
    inside := if s.inside (c.limiter i) = some i then Function.update s.inside (c.limiter i) none else s.inside }

/-- The next step of `acquire`. -/
def move (s : World ι κ) (i : ι) : World ι κ :=
  match s.pc i with
  | .idle => s.goto i .queued
  | .queued =>
    if s.inside (c.limiter i) = none then
      { s.goto i (.taking (s.clock + c.lockTimeoutS (c.limiter i))) with
        inside := Function.update s.inside (c.limiter i) (some i) }
    else s
  | .taking deadline => if s.holder = none then { s.goto i .locked with holder := some i } else s.goto i (.refused deadline)
  | .refused deadline =>
    if deadline ≤ s.clock then s.unwind c i else s.goto i (.polling deadline (s.clock + c.pollS (c.limiter i)))
  | .polling deadline wake => if wake ≤ s.clock then s.goto i (.taking deadline) else s
  | .locked => s.goto i (.reading s.clock)
  | .reading now =>
    match s.stamp with
    | none => s.goto i .stamping
    | some last =>
      let wait := c.spacing - (now - last)
      if 0 < wait then s.goto i (.waiting (min wait c.spacing)) else s.goto i .stamping
  | .waiting seconds => s.goto i (.sleeping (s.clock + seconds))
  | .sleeping wake => if wake ≤ s.clock then s.goto i .stamping else s
  | .stamping => s.goto i (.writing s.clock)
  | .writing value => { s.goto i (.opened value) with tmp := none }
  | .opened value => { s.goto i (.written value) with tmp := some value }
  | .written value => { s.goto i (.closing value) with stamp := s.tmp, tmp := none }
  | .closing value => { s.goto i (.leaving value) with holder := none }
  | .leaving value => (s.goto i (.returned value)).leave c i
  | .returned _ | .failed | .crashed => s

variable [DecidableEq π]

/-- The call is one of the process. -/
def isOf (p : π) (i : ι) : Bool := c.process (c.limiter i) = p

/-- The kernel closes the descriptors of the process. -/
def crash (s : World ι κ) (p : π) : World ι κ :=
  { s with
    holder := s.holder.filter fun i => !isOf c p i
    inside := fun k => if c.process k = p then none else s.inside k
    pc := fun i => if isOf c p i && (s.pc i).active then .crashed else s.pc i }

/-- One event. -/
def step (s : World ι κ) : Event ι π → World ι κ
  | .tick time => { s with clock := max s.clock time }
  | .move i => s.move c i
  | .raises i => if (s.pc i).active then s.unwind c i else s
  | .crash p => s.crash c p

end World

end Step

/-! ### Who has the lock -/

section Invariant

variable {ι κ π : Type} {c : Config ι κ π} {s s' : World ι κ} {i : ι}

/-- The calls between taking and dropping the lock file are those that hold it. -/
def Owner (s : World ι κ) : Prop := ∀ i, (s.pc i).holds = true ↔ s.holder = some i

/-- Between two states only one call has gone on, and it has left the files alone unless it has
the lock. -/
structure OnlyMoves (s s' : World ι κ) (i : ι) : Prop where
  /-- No time passes. -/
  clock : s'.clock = s.clock
  /-- The other calls are where they were. -/
  others : ∀ j, j ≠ i → s'.pc j = s.pc j
  /-- And hold what they held. -/
  holder : ∀ j, j ≠ i → (s'.holder = some j ↔ s.holder = some j)
  /-- The call holds the lock where its code says so. -/
  holds : (s'.pc i).holds = true ↔ s'.holder = some i
  /-- Only the holder changes the files. -/
  files : (s.pc i).holds = false → s'.stamp = s.stamp ∧ s'.tmp = s.tmp

theorem OnlyMoves.refl (h : Owner s) : OnlyMoves s s i :=
  ⟨rfl, fun _ _ => rfl, fun _ _ => Iff.rfl, h i, fun _ => ⟨rfl, rfl⟩⟩

theorem OnlyMoves.owner (h : Owner s) (hm : OnlyMoves s s' i) : Owner s' := by
  intro j
  by_cases hj : j = i
  · rw [hj]
    exact hm.holds
  · rw [hm.others j hj, hm.holder j hj]
    exact h j

/-! ### What the holder knows -/

variable (c) in
/-- What is known at each step of the stamp that it will put in place. -/
def Assert (s : World ι κ) : Pc → Prop
  | .reading now => now ≤ s.clock ∧ ∀ last ∈ s.stamp, last ≤ now
  | .waiting seconds => ∀ last ∈ s.stamp, last + c.spacing ≤ s.clock + seconds
  | .sleeping wake => ∀ last ∈ s.stamp, last + c.spacing ≤ wake
  | .stamping => ∀ last ∈ s.stamp, last + c.spacing ≤ s.clock
  | .writing value | .opened value => value ≤ s.clock ∧ ∀ last ∈ s.stamp, last + c.spacing ≤ value
  | .written value => (value ≤ s.clock ∧ ∀ last ∈ s.stamp, last + c.spacing ≤ value) ∧ s.tmp = some value
  | _ => True

theorem assert_of_not_holds {pc : Pc} (h : pc.holds = false) : Assert c s pc := by
  cases pc <;> trivial

/-- What is known stays true while time passes and the files stay. -/
theorem Assert.mono (hclock : s.clock ≤ s'.clock) (hstamp : s'.stamp = s.stamp)
    (htmp : s'.tmp = s.tmp) {pc : Pc}
    (h : Assert c s pc) : Assert c s' pc := by
  cases pc with
  | reading now => exact ⟨h.1.trans hclock, hstamp ▸ h.2⟩
  | waiting seconds => exact fun last hlast => (h last (hstamp ▸ hlast)).trans (by linarith)
  | sleeping wake => exact fun last hlast => h last (hstamp ▸ hlast)
  | stamping => exact fun last hlast => (h last (hstamp ▸ hlast)).trans hclock
  | writing value => exact ⟨h.1.trans hclock, hstamp ▸ h.2⟩
  | opened value => exact ⟨h.1.trans hclock, hstamp ▸ h.2⟩
  | written value => exact ⟨⟨h.1.1.trans hclock, hstamp ▸ h.1.2⟩, htmp.trans h.2⟩
  | _ => trivial

variable (c) in
/-- The invariant of the protocol. -/
structure Inv (s : World ι κ) : Prop where
  /-- No stamp is from the future. -/
  stamp_le : ∀ last ∈ s.stamp, last ≤ s.clock
  /-- One call at most has the lock. -/
  owner : Owner s
  /-- Each call knows what its step tells. -/
  assert : ∀ i, Assert c s (s.pc i)
  /-- A stamp put in place is the present one or older. -/
  below : ∀ i, ∀ v ∈ (s.pc i).stamped, ∃ last ∈ s.stamp, v ≤ last
  /-- Stamps put in place are the spacing apart. -/
  apart : ∀ i j, i ≠ j → ∀ v ∈ (s.pc i).stamped, ∀ w ∈ (s.pc j).stamped, c.spacing ≤ |v - w|

/-- What a step does to the stamp. -/
inductive Stamps (c : Config ι κ π) (s s' : World ι κ) (i : ι) : Prop
  /-- Nothing. -/
  | keeps (hstamp : s'.stamp = s.stamp) (hstamped : ∀ v ∈ (s'.pc i).stamped, v ∈ (s.pc i).stamped)
  /-- It puts a later one in place. -/
  | replaces {value : ℚ} (hstamp : s'.stamp = some value) (hstamped : (s'.pc i).stamped = some value)
      (hle : value ≤ s.clock) (hlater : ∀ last ∈ s.stamp, last + c.spacing ≤ value)

/-- A step of one call keeps the invariant. -/
theorem Inv.of_onlyMoves (h : Inv c s) (hm : OnlyMoves s s' i) (hassert : Assert c s' (s'.pc i))
    (hstamps : Stamps c s s' i) : Inv c s' := by
  have hassert' : ∀ j, Assert c s' (s'.pc j) := by
    intro j
    by_cases hj : j = i
    · rw [hj]
      exact hassert
    · rw [hm.others j hj]
      cases hholds : (s.pc j).holds with
      | false => exact assert_of_not_holds hholds
      | true =>
        -- two calls cannot both have the lock
        have hno : (s.pc i).holds = false := by
          by_contra hi
          have hi' := (h.owner i).mp (by simpa using hi)
          exact hj (Option.some.inj (((h.owner j).mp hholds).symm.trans hi'))
        obtain ⟨hstamp, htmp⟩ := hm.files hno
        exact (h.assert j).mono hm.clock.ge hstamp htmp
  cases hstamps with
  | keeps hstamp hstamped =>
    have hold : ∀ j, ∀ v ∈ (s'.pc j).stamped, v ∈ (s.pc j).stamped := by
      intro j v hv
      by_cases hj : j = i
      · rw [hj] at hv ⊢
        exact hstamped v hv
      · rwa [hm.others j hj] at hv
    refine ⟨?_, hm.owner h.owner, hassert', ?_, ?_⟩
    · rw [hstamp, hm.clock]
      exact h.stamp_le
    · rw [hstamp]
      exact fun j v hv => h.below j v (hold j v hv)
    · exact fun j k hjk v hv w hw => h.apart j k hjk v (hold j v hv) w (hold k w hw)
  | @replaces value hstamp hstamped hle hlater =>
    have hnew : ∀ j, j ≠ i → ∀ v ∈ (s'.pc j).stamped, v + c.spacing ≤ value := by
      intro j hj v hv
      rw [hm.others j hj] at hv
      obtain ⟨last, hlast, hvl⟩ := h.below j v hv
      linarith [hlater last hlast]
    have hmine : ∀ v ∈ (s'.pc i).stamped, v = value := fun v hv => by
      rw [hstamped] at hv
      exact (Option.some.inj hv).symm
    refine ⟨?_, hm.owner h.owner, hassert', ?_, ?_⟩
    · rw [hstamp, hm.clock]
      rintro last hlast
      exact (Option.some.inj hlast) ▸ hle
    · rw [hstamp]
      intro j v hv
      refine ⟨value, rfl, ?_⟩
      by_cases hj : j = i
      · exact (hmine v (hj ▸ hv)).le
      · linarith [hnew j hj v hv, c.spacing_pos]
    · intro j k hjk v hv w hw
      by_cases hj : j = i
      · have hk : k ≠ i := fun hk => hjk (hj.trans hk.symm)
        rw [hmine v (hj ▸ hv)]
        exact le_abs.mpr (Or.inl (by linarith [hnew k hk w hw]))
      · by_cases hk : k = i
        · rw [hmine w (hk ▸ hw)]
          exact le_abs.mpr (Or.inr (by linarith [hnew j hj v hv]))
        · rw [hm.others j hj] at hv
          rw [hm.others k hk] at hw
          exact h.apart j k hjk v hv w hw

/-- What is missing of the spacing is slept for. -/
theorem assert_after_reading (h : Inv c s) {now last : ℚ} (hpc : s.pc i = .reading now)
    (hlast : s.stamp = some last) :
    (0 < c.spacing - (now - last) → Assert c s (.waiting (min (c.spacing - (now - last)) c.spacing))) ∧
      (¬0 < c.spacing - (now - last) → Assert c s .stamping) := by
  obtain ⟨hnow, hread⟩ : Assert c s (.reading now) := hpc ▸ h.assert i
  have hle := h.stamp_le last hlast
  constructor
  · intro _ last' hlast'
    obtain rfl := Option.some.inj (hlast.symm.trans hlast')
    have hmin : last + c.spacing - s.clock ≤ min (c.spacing - (now - last)) c.spacing :=
      le_min (by linarith) (by linarith)
    linarith
  · intro hwait last' hlast'
    obtain rfl := Option.some.inj (hlast.symm.trans hlast')
    linarith

/-- A step of a call that keeps the invariant. -/
structure Sound (c : Config ι κ π) (s s' : World ι κ) (i : ι) : Prop where
  /-- Only the call goes on. -/
  moves : OnlyMoves s s' i
  /-- It knows what its next step needs. -/
  assert : Assert c s' (s'.pc i)
  /-- The stamp stays or is replaced by a later one. -/
  stamps : Stamps c s s' i

theorem Sound.refl (h : Inv c s) : Sound c s s i :=
  ⟨.refl h.owner, h.assert i, .keeps rfl fun _ hv => hv⟩

theorem Sound.inv (h : Inv c s) (hs : Sound c s s' i) : Inv c s' := h.of_onlyMoves hs.moves hs.assert hs.stamps

/-- The stamp is the same or later. -/
def StampOnward (s s' : World ι κ) : Prop := ∀ last ∈ s.stamp, ∃ last' ∈ s'.stamp, last ≤ last'

theorem StampOnward.refl (s : World ι κ) : StampOnward s s := fun last hlast => ⟨last, hlast, le_rfl⟩

theorem StampOnward.trans {s t u : World ι κ} (hst : StampOnward s t) (htu : StampOnward t u) :
    StampOnward s u := by
  intro last hlast
  obtain ⟨last', hlast', hle⟩ := hst last hlast
  obtain ⟨last'', hlast'', hle'⟩ := htu last' hlast'
  exact ⟨last'', hlast'', hle.trans hle'⟩

theorem Sound.onward (hs : Sound c s s' i) : StampOnward s s' := by
  cases hs.stamps with
  | keeps hstamp _ => exact fun last hlast => ⟨last, hstamp ▸ hlast, le_rfl⟩
  | @replaces value hstamp _ _ hlater =>
    exact fun last hlast => ⟨value, hstamp, by linarith [hlater last hlast, c.spacing_pos]⟩

end Invariant

/-! ### Crashes -/

section Crash

variable {ι κ π : Type} [DecidableEq π] {c : Config ι κ π} {s : World ι κ}

/-- A call that a crash does not end is where it was. -/
theorem pc_crash (p : π) (j : ι) : (s.crash c p).pc j = s.pc j ∨ (s.crash c p).pc j = .crashed := by
  simp only [World.crash]
  split
  · exact Or.inr rfl
  · exact Or.inl rfl

/-- A crash frees the lock of the process, and only that. -/
theorem owner_crash (h : Owner s) (p : π) : Owner (s.crash c p) := by
  intro j
  have hholder : (s.crash c p).holder = some j ↔ s.holder = some j ∧ World.isOf c p j = false := by
    simp [World.crash, Option.filter_eq_some_iff]
  rw [hholder, ← h j]
  cases hof : World.isOf c p j with
  | false => simp [World.crash, hof]
  | true =>
    refine iff_of_false ?_ (by simp)
    cases hpc : s.pc j <;> simp [World.crash, hof, hpc, Pc.active, Pc.holds]

theorem inv_crash (h : Inv c s) (p : π) : Inv c (s.crash c p) := by
  have hold : ∀ j, ∀ v ∈ ((s.crash c p).pc j).stamped, v ∈ (s.pc j).stamped := by
    intro j v hv
    rcases pc_crash p j with hsame | hcrashed
    · rwa [hsame] at hv
    · rw [hcrashed] at hv
      exact absurd hv (by simp [Pc.stamped])
  refine ⟨h.stamp_le, owner_crash h.owner p, fun j => ?_, fun j v hv => h.below j v (hold j v hv),
    fun j k hjk v hv w hw => h.apart j k hjk v (hold j v hv) w (hold k w hw)⟩
  rcases pc_crash p j with hsame | hcrashed
  · rw [hsame]
    exact (h.assert j).mono le_rfl rfl rfl
  · rw [hcrashed]
    trivial

end Crash

/-! ### The steps -/

section Steps

variable {ι κ π : Type} [DecidableEq ι] {c : Config ι κ π} {s s' : World ι κ} {i : ι}

/-- A step that neither takes nor drops the lock and leaves the stamp. -/
theorem Sound.of_goto (h : Inv c s) {pc : Pc} (hclock : s'.clock = s.clock)
    (hpc : s'.pc = Function.update s.pc i pc)
    (hholder : s'.holder = s.holder) (hholds : pc.holds = (s.pc i).holds) (hstamp : s'.stamp = s.stamp)
    (htmp : (s.pc i).holds = false → s'.tmp = s.tmp) (hstamped : pc.stamped = (s.pc i).stamped)
    (hassert : Assert c s' pc) : Sound c s s' i := by
  have hself : s'.pc i = pc := by rw [hpc, Function.update_self]
  refine ⟨⟨hclock, fun j hj => ?_, fun j _ => by rw [hholder], ?_, fun hno => ⟨hstamp, htmp hno⟩⟩,
    hself ▸ hassert,
    .keeps hstamp fun v hv => ?_⟩
  · rw [hpc, Function.update_of_ne hj]
  · rw [hself, hholds, hholder]
    exact h.owner i
  · rwa [hself, hstamped] at hv

/-- A step that changes no more than where the call is. -/
theorem Sound.goto (h : Inv c s) {pc pc' : Pc} (hpc : s.pc i = pc') (hholds : pc.holds = pc'.holds)
    (hstamped : pc.stamped = pc'.stamped) (hassert : Assert c s pc) : Sound c s (s.goto i pc) i :=
  .of_goto h rfl rfl rfl (hpc ▸ hholds) rfl (fun _ => rfl) (hpc ▸ hstamped) (hassert.mono le_rfl rfl rfl)

variable [DecidableEq κ]

theorem sound_unwind (c : Config ι κ π) : Sound c s (s.unwind c i) i := by
  have hholder : ∀ j, (s.unwind c i).holder = some j ↔ s.holder = some j ∧ j ≠ i := by
    intro j
    simp only [World.unwind]
    split
    next hi => simp [hi, eq_comm]
    next hi => exact ⟨fun hj => ⟨hj, fun hji => hi (hji ▸ hj)⟩, And.left⟩
  have hself : (s.unwind c i).pc i = .failed := Function.update_self _ _ _
  refine ⟨⟨rfl, fun j hj => Function.update_of_ne hj _ _, fun j hj => ?_, ?_, fun _ => ⟨rfl, rfl⟩⟩,
    ?_, .keeps rfl ?_⟩
  · rw [hholder, and_iff_left hj]
  · rw [hholder, hself]
    simp [Pc.holds]
  · rw [hself]
    trivial
  · rw [hself]
    exact fun v hv => absurd hv (by simp [Pc.stamped])

/-- The steps of `acquire` keep the invariant. -/
theorem sound_move (h : Inv c s) (i : ι) : Sound c s (s.move c i) i := by
  have hknown := h.assert i
  unfold World.move
  split
  next hpc => exact .goto h hpc rfl rfl trivial
  next hpc =>
    split
    · exact .of_goto h rfl rfl rfl (by rw [hpc]; rfl) rfl (fun _ => rfl) (by rw [hpc]; rfl) trivial
    · exact .refl h
  next deadline hpc =>
    split
    next hfree =>
      have hself : ∀ holder, { s.goto i .locked with holder }.pc i = .locked := fun _ =>
        Function.update_self _ _ _
      refine ⟨⟨rfl, fun j hj => Function.update_of_ne hj _ _, fun j hj => ?_, ?_, fun _ => ⟨rfl, rfl⟩⟩, ?_,
        .keeps rfl ?_⟩
      · simp [hfree, hj.symm]
      · simp [World.goto, Pc.holds]
      · rw [hself]
        trivial
      · rw [hself]
        exact fun v hv => absurd hv (by simp [Pc.stamped])
    next => exact .goto h hpc rfl rfl trivial
  next deadline hpc =>
    split
    · exact sound_unwind c
    · exact .goto h hpc rfl rfl trivial
  next deadline wake hpc =>
    split
    · exact .goto h hpc rfl rfl trivial
    · exact .refl h
  next hpc => exact .goto h hpc rfl rfl ⟨le_rfl, h.stamp_le⟩
  next now hpc =>
    split
    next hnone => exact .goto h hpc rfl rfl fun last hlast => absurd (hnone.symm.trans hlast) (by simp)
    next last hlast =>
      obtain ⟨hwait, hstamping⟩ := assert_after_reading h hpc hlast
      simp only
      split
      next hpos => exact .goto h hpc rfl rfl (hwait hpos)
      next hpos => exact .goto h hpc rfl rfl (hstamping hpos)
  next seconds hpc =>
    rw [hpc] at hknown
    exact .goto h hpc rfl rfl hknown
  next wake hpc =>
    rw [hpc] at hknown
    split
    next hwake => exact .goto h hpc rfl rfl fun last hlast => (hknown last hlast).trans hwake
    next => exact .refl h
  next hpc =>
    rw [hpc] at hknown
    exact .goto h hpc rfl rfl ⟨le_rfl, hknown⟩
  -- the three steps that change a file
  next value hpc =>
    rw [hpc] at hknown
    exact .of_goto h rfl rfl rfl (by rw [hpc]; rfl) rfl (fun hno => absurd hno (by rw [hpc]; simp [Pc.holds]))
      (by rw [hpc]; rfl) hknown
  next value hpc =>
    rw [hpc] at hknown
    exact .of_goto h rfl rfl rfl (by rw [hpc]; rfl) rfl (fun hno => absurd hno (by rw [hpc]; simp [Pc.holds]))
      (by rw [hpc]; rfl) ⟨hknown, rfl⟩
  next value hpc =>
    rw [hpc] at hknown
    obtain ⟨⟨hle, hlater⟩, htmp⟩ := hknown
    have hself : { s.goto i (.closing value) with stamp := s.tmp, tmp := none }.pc i = .closing value :=
      Function.update_self _ _ _
    refine ⟨⟨rfl, fun j hj => Function.update_of_ne hj _ _, fun _ _ => Iff.rfl, ?_, fun hno => ?_⟩, ?_,
      .replaces htmp ?_ hle hlater⟩
    · rw [hself]
      exact (hpc ▸ h.owner i : (Pc.written value).holds = true ↔ s.holder = some i)
    · exact absurd hno (by rw [hpc]; simp [Pc.holds])
    · rw [hself]
      trivial
    · rw [hself]
      rfl
  next value hpc =>
    have hmine : s.holder = some i := (h.owner i).mp (by rw [hpc]; rfl)
    have hself : { s.goto i (.leaving value) with holder := none }.pc i = .leaving value :=
      Function.update_self _ _ _
    refine ⟨⟨rfl, fun j hj => Function.update_of_ne hj _ _, fun j hj => ?_, ?_, fun _ => ⟨rfl, rfl⟩⟩,
      ?_, .keeps rfl ?_⟩
    · simp [hmine, hj.symm]
    · simp [World.goto, Pc.holds]
    · rw [hself]
      trivial
    · rw [hself, hpc]
      exact fun v hv => hv
  next value hpc =>
    exact .of_goto h rfl rfl rfl (by rw [hpc]; rfl) rfl (fun _ => rfl) (by rw [hpc]; rfl) trivial
  all_goals exact .refl h

variable [DecidableEq π]

/-- **One step** keeps the invariant, and the stamp does not go back. -/
theorem inv_step (h : Inv c s) (ev : Event ι π) : Inv c (s.step c ev) ∧ StampOnward s (s.step c ev) := by
  cases ev with
  | tick time =>
    have hclock : s.clock ≤ max s.clock time := le_max_left _ _
    have hassert : ∀ j, Assert c { s with clock := max s.clock time } (s.pc j) := by
      intro j
      refine Assert.mono ?_ ?_ ?_ (h.assert j)
      exacts [hclock, rfl, rfl]
    exact ⟨⟨fun last hlast => (h.stamp_le last hlast).trans hclock, h.owner, hassert, h.below,
      h.apart⟩, .refl s⟩
  | move i =>
    have hs := sound_move h i
    exact ⟨hs.inv h, hs.onward⟩
  | raises i =>
    have hs : Sound c s (s.step c (.raises i)) i := by
      simp only [World.step]
      split
      · exact sound_unwind c
      · exact .refl h
    exact ⟨hs.inv h, hs.onward⟩
  | crash p => exact ⟨inv_crash h p, .refl s⟩

/-! ### Runs -/

/-- No call has been made, and a stamp there may be is of the past. -/
structure Initial (s : World ι κ) : Prop where
  /-- No call yet. -/
  idle : ∀ i, s.pc i = .idle
  /-- Nobody has the lock file. -/
  free : s.holder = none
  /-- Nor the lock of a limiter. -/
  outside : ∀ k, s.inside k = none
  /-- The stamp was written under the same clock. -/
  stamp_le : ∀ last ∈ s.stamp, last ≤ s.clock

omit [DecidableEq ι] [DecidableEq κ] [DecidableEq π] in
theorem Initial.inv (h : Initial s) : Inv c s := by
  refine ⟨h.stamp_le, fun i => ?_, fun i => ?_, fun i v hv => ?_, fun i j _ v hv => ?_⟩
  · rw [h.idle, h.free]
    simp [Pc.holds]
  · rw [h.idle]
    trivial
  · rw [h.idle] at hv
    exact absurd hv (by simp [Pc.stamped])
  · rw [h.idle] at hv
    exact absurd hv (by simp [Pc.stamped])

theorem inv_final (h : Initial s) (evs : List (Event ι π)) : Inv c (Run.final (World.step c) s evs) :=
  Run.final_of_invariant (I := Inv c) (fun _ ev hs => (inv_step hs ev).1) evs h.inv

/-- The lock is never held by a call that is gone. -/
theorem not_wedged (h : Initial s) (evs : List (Event ι π)) {i : ι}
    (hi : (Run.final (World.step c) s evs).holder = some i) :
    ((Run.final (World.step c) s evs).pc i).active = true := by
  have hholds := ((inv_final h evs).owner i).mpr hi
  cases hpc : (Run.final (World.step c) s evs).pc i <;> simp_all [Pc.holds, Pc.active]

/-- **Spacing**: in every run the stamps of two grants are at least the spacing apart, and the
stamp never goes back. -/
theorem grants_spaced (h : Initial s) (evs : List (Event ι π)) :
    (∀ i j, i ≠ j → ∀ v w, (Run.final (World.step c) s evs).pc i = .returned v →
      (Run.final (World.step c) s evs).pc j = .returned w → c.spacing ≤ |v - w|) ∧
      Run.Throughout (World.step c) StampOnward s evs := by
  constructor
  · intro i j hij v w hi hj
    exact (inv_final h evs).apart i j hij v (by rw [hi]; rfl) w (by rw [hj]; rfl)
  · refine (Run.throughout_iff_eachStep StampOnward.refl fun _ _ _ => StampOnward.trans).mpr ?_
    exact Run.eachStep_of_invariant (fun _ ev hs _ => (inv_step hs ev).1) (fun _ ev hs => (inv_step hs ev).2)
      (h.inv (c := c)) (Run.eachStep_of_forall (Q := fun _ _ => True) fun _ _ => trivial)

end Steps

/-! ### Two processes -/

/-- Two processes with a limiter each, spaced by four seconds. -/
def twoProcesses : Config ℕ ℕ ℕ where
  spacing := 4
  spacing_pos := by norm_num
  limiter := id
  process := id
  pollS _ := 1 / 20
  lockTimeoutS _ := 60

/-- No stamp yet. -/
def freshDirectory : World ℕ ℕ where
  clock := 1000
  stamp := none
  tmp := none
  holder := none
  inside _ := none
  pc _ := .idle

/-- The second call finds the lock taken, tries again, and sleeps for what is missing. -/
def contention : List (Event ℕ ℕ) :=
  List.replicate 4 (.move 0) ++ List.replicate 5 (.move 1) ++ List.replicate 7 (.move 0) ++ [.tick 1001] ++
    List.replicate 5 (.move 1) ++ [.tick 1005] ++ List.replicate 7 (.move 1)

theorem freshDirectory_initial : Initial freshDirectory :=
    ⟨fun _ => rfl, rfl, fun _ => rfl, by simp [freshDirectory]⟩

/-- Both are granted, five seconds apart. -/
theorem grants_spaced_contention :
    ((Run.final (World.step twoProcesses) freshDirectory contention).pc 0 = .returned 1000 ∧
      (Run.final (World.step twoProcesses) freshDirectory contention).pc 1 = .returned 1005) ∧
      (∀ i j, i ≠ j → ∀ v w, (Run.final (World.step twoProcesses) freshDirectory contention).pc i = .returned v →
        (Run.final (World.step twoProcesses) freshDirectory contention).pc j = .returned w →
          twoProcesses.spacing ≤ |v - w|) ∧
      Run.Throughout (World.step twoProcesses) StampOnward freshDirectory contention :=
  ⟨by decide +kernel, grants_spaced freshDirectory_initial contention⟩

end NiftyShield.Client.SharedRateLimiter
