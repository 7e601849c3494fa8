import NiftyShield.Lib.Dict

/-!
# Caches

A cache holds values of a function, and computes those it does not hold. What is read through a
cache that agrees with the function is the function's value, and the cache goes on agreeing.
-/

namespace NiftyShield.Lib.Cache

variable {κ ν : Type*} [DecidableEq κ]

/-- Every value that is held is the function's. -/
def Agrees (f : κ → ν) (cache : Dict κ ν) : Prop := ∀ k v, cache.get? k = some v → v = f k

/-- The value of a key, which is computed and kept if it is not held. -/
def read (f : κ → ν) (cache : Dict κ ν) (k : κ) : ν × Dict κ ν :=
  match cache.get? k with
  | some v => (v, cache)
  | none => (f k, cache.set k (f k))

variable {f : κ → ν} {cache : Dict κ ν}

theorem agrees_empty (f : κ → ν) : Agrees f Dict.empty := fun k v h => absurd h (by simp)

theorem read_fst (h : Agrees f cache) (k : κ) : (read f cache k).1 = f k := by
  unfold read
  split
  next v hv => exact h k v hv
  next => rfl

theorem agrees_read (h : Agrees f cache) (k : κ) : Agrees f (read f cache k).2 := by
  unfold read
  split
  · exact h
  · intro j v hv
    rw [Dict.get?_set] at hv
    split at hv
    next hj =>
      rw [hj]
      exact (Option.some.inj hv).symm
    next => exact h j v hv

/-- Agreement with one function is agreement with another of the same values. -/
theorem Agrees.congr {g : κ → ν} (h : Agrees f cache) (hfg : ∀ k, f k = g k) : Agrees g cache :=
  fun k v hv => (h k v hv).trans (hfg k)

end NiftyShield.Lib.Cache
