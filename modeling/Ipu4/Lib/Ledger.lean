import Mathlib.Data.List.Perm.Basic

/-!
# Balances of acquired and released resources

A ledger holds, for each resource, how often it was acquired minus how often
it was released. A release of something not held shows as a negative
balance, so equal ledgers mean that everything was given back exactly once.
-/

namespace Ipu4.Ledger

abbrev Balance (α : Type) := α → Int

variable {α : Type} [DecidableEq α] {led : Balance α}

def acquire (led : Balance α) (xs : List α) : Balance α := fun x => led x + xs.count x

def release (led : Balance α) (xs : List α) : Balance α := fun x => led x - xs.count x

theorem release_acquire (led : Balance α) (xs : List α) : release (acquire led xs) xs = led := by
  funext x
  simp [release, acquire]

@[simp]
theorem acquire_nil (led : Balance α) : acquire led [] = led := by
  funext x
  simp [acquire]

@[simp]
theorem release_nil (led : Balance α) : release led [] = led := by
  funext x
  simp [release]

theorem acquire_acquire (led : Balance α) (xs ys : List α) :
    acquire (acquire led xs) ys = acquire led (xs ++ ys) := by
  funext x
  simp only [acquire, List.count_append]
  omega

theorem release_release (led : Balance α) (xs ys : List α) :
    release (release led xs) ys = release led (xs ++ ys) := by
  funext x
  simp only [release, List.count_append]
  omega

theorem release_acquire_append (led : Balance α) (xs ys : List α) :
    release (acquire led (xs ++ ys)) ys = acquire led xs := by
  rw [← acquire_acquire, release_acquire]

theorem acquire_perm {xs ys : List α} (h : xs.Perm ys) : acquire led xs = acquire led ys := by
  funext x
  simp [acquire, h.count_eq x]

theorem acquire_pos {xs : List α} (h : 0 ≤ led x) (hm : x ∈ xs) : 0 < acquire led xs x := by
  have hcount := List.count_pos_iff.mpr hm
  simp only [acquire]
  omega

end Ipu4.Ledger
