import NiftyShield.Lib.Backoff
import Mathlib.Algebra.Field.Rat
import NiftyShield.Lib.Dict
import Mathlib.Algebra.Order.Ring.Rat

/-!
# The health of data sources

`SourceHealth` (`src/client/source_health.py`) keeps the pairs of a source and a capability
that are unhealthy, each with the time of its next probe. `Tracks` relates the entry of a
pair to the outage that the pair is in; `Tracks.allow`, `tracks_recordSuccess` and
`Tracks.markUnhealthy` say what each operation makes of it.

## Honest scope

The clock is read through an argument: what it shows at a call of `allow` or `mark_unhealthy`.
Times are exact rationals. A failing alert is suppressed, so only that it is sent is modelled.
-/

namespace NiftyShield.Client

open NiftyShield.Lib NiftyShield.Lib.Backoff

/-- `_State`. -/
structure ProbeState where
  /-- Why it is unhealthy. -/
  reason : String
  /-- When it may be probed. -/
  nextProbeAt : ℚ
  /-- Probes so far. -/
  probes : ℕ
  deriving DecidableEq

/-- The entry after a probe has been granted at `now`. -/
def ProbeState.probed (st : ProbeState) (base cap now : ℚ) : ProbeState :=
  let probes := st.probes + 1
  { st with probes, nextProbeAt := now + min (base * 2 ^ probes) cap }

/-- `SourceHealth`, for sources named by `ι`. -/
structure SourceHealth (ι : Type) where
  /-- `probe_interval_s`. -/
  base : ℚ := 60
  /-- `max_probe_interval_s`. -/
  cap : ℚ := 900
  /-- `_unhealthy`. -/
  unhealthy : Dict (ι × String) ProbeState := Dict.empty

namespace SourceHealth

variable {ι : Type} [DecidableEq ι] (h : SourceHealth ι) (key : ι × String)

/-- `is_unhealthy`. -/
def isUnhealthy : Bool := (h.unhealthy.get? key).isSome

/-- `allow`, where the clock shows `now`. -/
def allow (now : ℚ) : SourceHealth ι × Bool :=
  match h.unhealthy.get? key with
  | none => (h, true)
  | some st =>
    if now < st.nextProbeAt then (h, false)
    else ({ h with unhealthy := h.unhealthy.set key (st.probed h.base h.cap now) }, true)

/-- `record_success`. -/
def recordSuccess : SourceHealth ι := { h with unhealthy := h.unhealthy.erase key }

/-- `mark_unhealthy`, where the clock shows `now`; and whether the alert is sent. -/
def markUnhealthy (now : ℚ) (reason : String) (alert : Bool) : SourceHealth ι × Bool :=
  let first := !h.isUnhealthy key
  let st := (h.unhealthy.get? key).getD { reason, nextProbeAt := now + h.base, probes := 0 }
  ({ h with unhealthy := h.unhealthy.set key { st with reason } }, first && alert)

/-- When a probe is granted: `allow` reads the clock for unhealthy pairs only. -/
def probeTime (now : ℚ) : Option ℚ := if h.isUnhealthy key then some now else none

/-! ### Outages -/

/-- The entry of a pair is that of its outage: the probes, and when the next one is due. -/
def Tracks (o : Option (Outage ℚ)) : Prop :=
  (h.unhealthy.get? key).map (fun st => (st.nextProbeAt, st.probes)) =
    o.map fun o => (o.due h.base h.cap, o.tries)

/-- Only the entry of one pair differs. -/
structure OnlyAt (h' : SourceHealth ι) : Prop where
  /-- The intervals stay. -/
  base : h'.base = h.base
  /-- And the cap. -/
  cap : h'.cap = h.cap
  /-- And every other pair. -/
  other : ∀ j, j ≠ key → h'.unhealthy.get? j = h.unhealthy.get? j

variable {h key}

theorem OnlyAt.refl : h.OnlyAt key h := ⟨rfl, rfl, fun _ _ => rfl⟩

theorem OnlyAt.trans {h' h'' : SourceHealth ι} (h₁ : h.OnlyAt key h') (h₂ : h'.OnlyAt key h'') : h.OnlyAt key h'' :=
  ⟨h₂.base.trans h₁.base, h₂.cap.trans h₁.cap, fun j hj => (h₂.other j hj).trans (h₁.other j hj)⟩

theorem OnlyAt.tracks {h' : SourceHealth ι} (hat : h.OnlyAt key h') {j : ι × String} (hj : j ≠ key)
    {o : Option (Outage ℚ)} : h'.Tracks j o ↔ h.Tracks j o := by
  rw [Tracks, Tracks, hat.other j hj, hat.base, hat.cap]

variable (h key) in
theorem onlyAt_allow (now : ℚ) : h.OnlyAt key (h.allow key now).1 := by
  unfold allow
  split
  next => exact .refl
  next st _ =>
    split
    next => exact .refl
    next =>
      refine ⟨rfl, rfl, fun j hj => ?_⟩
      rw [Dict.get?_set, if_neg hj]

theorem onlyAt_recordSuccess : h.OnlyAt key (h.recordSuccess key) := by
  refine ⟨rfl, rfl, fun j hj => ?_⟩
  rw [recordSuccess, Dict.get?_erase, if_neg hj]

theorem onlyAt_markUnhealthy (now : ℚ) (reason : String) (alert : Bool) :
    h.OnlyAt key (h.markUnhealthy key now reason alert).1 := by
  refine ⟨rfl, rfl, fun j hj => ?_⟩
  simp only [markUnhealthy]
  rw [Dict.get?_set, if_neg hj]

/-- A pair is refused before its probe is due, and otherwise a probe is granted. -/
theorem Tracks.allow {o : Option (Outage ℚ)} (ht : h.Tracks key o) (now : ℚ) :
    ((h.allow key now).2 = false ∧ (h.allow key now).1 = h ∧ Respects h.base h.cap o (.refused now)) ∨
      ((h.allow key now).2 = true ∧
        (∀ ending, Respects h.base h.cap o (.tried (h.probeTime key now) ending)) ∧
        (h.allow key now).1.Tracks key (Outage.after o (.tried (h.probeTime key now) .abandoned))) := by
  unfold Tracks at ht
  cases o with
  | none =>
    have hnone : h.unhealthy.get? key = none := Option.map_eq_none_iff.mp ht
    have hprobe : h.probeTime key now = none := by simp [probeTime, isUnhealthy, hnone]
    have hallow : h.allow key now = (h, true) := by simp [SourceHealth.allow, hnone]
    rw [hallow, hprobe]
    exact .inr ⟨rfl, fun _ => rfl, by simpa [Tracks, Outage.after] using hnone⟩
  | some o =>
    obtain ⟨st, hst, hschedule⟩ := Option.map_eq_some_iff.mp ht
    obtain ⟨hnext, hprobes⟩ := Prod.mk.inj hschedule
    have hprobe : h.probeTime key now = some now := by simp [probeTime, isUnhealthy, hst]
    by_cases hearly : now < st.nextProbeAt
    · have hallow : h.allow key now = (h, false) := by simp [SourceHealth.allow, hst, hearly]
      rw [hallow]
      refine .inl ⟨rfl, rfl, ?_⟩
      rwa [hnext] at hearly
    · have hallow : h.allow key now =
          ({ h with unhealthy := h.unhealthy.set key (st.probed h.base h.cap now) }, true) := by
        simp [SourceHealth.allow, hst, hearly]
      rw [hallow, hprobe]
      refine .inr ⟨rfl, fun _ => ⟨now, rfl, ?_⟩, ?_⟩
      · rw [← hnext]
        exact not_lt.mp hearly
      · simp only [Tracks]
        rw [Dict.get?_set, if_pos rfl]
        simp [Outage.after, Outage.due, gap, ProbeState.probed, hprobes]

/-- Whether a pair is marked is not changed by `allow`. -/
theorem isUnhealthy_allow (now : ℚ) (j : ι × String) : (h.allow key now).1.isUnhealthy j = h.isUnhealthy j := by
  unfold allow
  split
  next => rfl
  next st hst =>
    split
    next => rfl
    next =>
      simp only [isUnhealthy]
      rw [Dict.get?_set]
      split
      next hj => rw [hj, hst, Option.isSome_some, Option.isSome_some]
      next => rfl

/-- A success ends the outage. -/
theorem tracks_recordSuccess : (h.recordSuccess key).Tracks key none := by
  simp only [Tracks, recordSuccess]
  rw [Dict.get?_erase, if_pos rfl]
  rfl

/-- A failure begins one, if there is none. -/
theorem Tracks.markUnhealthy {o : Option (Outage ℚ)} (ht : h.Tracks key o) (now : ℚ) (reason : String)
    (alert : Bool) : (h.markUnhealthy key now reason alert).1.Tracks key (some (o.getD ⟨now, 0⟩)) := by
  unfold Tracks at ht
  simp only [Tracks, SourceHealth.markUnhealthy]
  rw [Dict.get?_set, if_pos rfl]
  cases o with
  | none =>
    have hnone : h.unhealthy.get? key = none := Option.map_eq_none_iff.mp ht
    simp [hnone, Outage.due, gap]
  | some o =>
    obtain ⟨st, hst, hschedule⟩ := Option.map_eq_some_iff.mp ht
    simpa [hst] using hschedule

/-- A fresh tracker knows of no outage. -/
theorem tracks_none_of_empty (hempty : h.unhealthy = Dict.empty) : h.Tracks key none := by
  rw [Tracks, hempty]
  rfl

end SourceHealth

example : (List.range 6).map (gap (60 : ℚ) 900) = [60, 120, 240, 480, 900, 900] := by decide +kernel

end NiftyShield.Client
