import Mathlib.Data.List.Basic
import Mathlib.Data.Nat.Notation
import Mathlib.Tactic.Common

/-!
# Counting in a sliding window

The times of what was admitted, in the order in which it was. If fewer than the limit were
in the window that ends now, one more may be admitted, and then no window of this length
holds more than the limit, wherever it starts.
-/

namespace Bartok.Foundation

section Window

/-- Those that are less than `w` before `now`. -/
def recent (w now : ℕ) (ts : List ℕ) : List ℕ := ts.filter fun t => now < t + w

/-- The half-open window of length `w` holds at most `limit` of them, wherever it starts. -/
def WindowBound (limit w : ℕ) (ts : List ℕ) : Prop :=
  ∀ start, ts.countP (fun t => start ≤ t ∧ t < start + w) ≤ limit

variable {limit w now later : ℕ} {ts : List ℕ}

theorem recent_append {us : List ℕ} :
    recent w now (ts ++ us) = recent w now ts ++ recent w now us :=
  List.filter_append _ _

/-- What is still recent later was so before. -/
theorem recent_recent (h : now ≤ later) : recent w later (recent w now ts) = recent w later ts := by
  rw [recent, recent, List.filter_filter]
  apply List.filter_congr
  intro t _
  rw [Bool.eq_iff_iff, Bool.and_eq_true, decide_eq_true_eq, decide_eq_true_eq]
  omega

theorem recent_eq_nil (h : ∀ t ∈ ts, t + w ≤ now) : recent w now ts = [] :=
  List.filter_eq_nil_iff.mpr fun t ht => by simpa using h t ht

/-- One more may come when fewer than the limit are recent. -/
theorem WindowBound.concat (h : WindowBound limit w ts) (hts : ∀ t ∈ ts, t ≤ now)
    (hfew : (recent w now ts).length < limit) : WindowBound limit w (ts ++ [now]) := by
  intro start
  rw [List.countP_append, List.countP_singleton]
  split
  · next hin =>
      -- what is in the window with `now` is recent
      have hin : start ≤ now ∧ now < start + w := by simpa using hin
      have hle : ts.countP (fun t => start ≤ t ∧ t < start + w) ≤ (recent w now ts).length := by
        rw [recent, ← List.countP_eq_length_filter]
        apply List.countP_mono_left
        intro t ht hwin
        have hwin : start ≤ t ∧ t < start + w := by simpa using hwin
        have := hts t ht
        simp only [decide_eq_true_eq]
        omega
      omega
  · exact h start

end Window

end Bartok.Foundation
