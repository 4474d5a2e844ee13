import Mathlib.Data.List.Basic
import Mathlib.Order.Basic
import Mathlib.Tactic.IntervalCases

/-!
# Runs of ones and zeros

A list of bits that is a run of ones and then a run of zeros is one that never rises.
-/

namespace IotPanel.Bits

/-- The bits of an octet, the highest first. -/
def ofOctet (n : ℕ) : List Bool := [7, 6, 5, 4, 3, 2, 1, 0].map n.testBit

/-- The octets whose own bits never rise. -/
def maskOctets : List ℕ := [0, 128, 192, 224, 240, 248, 252, 254, 255]

theorem exists_replicate_iff {l : List Bool} :
    (∃ m n, l = List.replicate m true ++ List.replicate n false) ↔ l.Pairwise (· ≥ ·) := by
  induction l with
  | nil => exact ⟨fun _ => .nil, fun _ => ⟨0, 0, rfl⟩⟩
  | cons b l ih =>
    rw [List.pairwise_cons, ← ih]
    cases b with
    | true =>
      constructor
      · rintro ⟨_ | m, n, h⟩
        · cases n <;> simp [List.replicate_succ] at h
        · refine ⟨fun x _ => Bool.le_true x, m, n, ?_⟩
          simpa [List.replicate_succ] using h
      · rintro ⟨-, m, n, rfl⟩
        exact ⟨m + 1, n, by simp [List.replicate_succ]⟩
    | false =>
      constructor
      · rintro ⟨_ | m, n, h⟩
        · cases n with
          | zero => simp at h
          | succ n =>
            have hl : l = List.replicate n false := by simpa [List.replicate_succ] using h
            subst hl
            exact ⟨fun x hx => (List.eq_of_mem_replicate hx).le, 0, n, rfl⟩
        · simp [List.replicate_succ] at h
      · rintro ⟨hle, -⟩
        -- after a zero there are only zeros
        have hzero : ∀ x ∈ l, x = false := fun x hx => Bool.eq_false_of_le_false (hle x hx)
        exact ⟨0, l.length + 1, by
          rw [List.eq_replicate_of_mem hzero]
          simp [List.replicate_succ]⟩

theorem pairwise_ofOctet {n : ℕ} (h : n < 256) :
    (ofOctet n).Pairwise (· ≥ ·) ↔ n ∈ maskOctets := by
  have hall : ∀ n < 256, (ofOctet n).Pairwise (· ≥ ·) ↔ n ∈ maskOctets := by decide +kernel
  exact hall n h

theorem ofOctet_eq_ones {n : ℕ} (h : n < 256) : (∀ x ∈ ofOctet n, x = true) ↔ n = 255 := by
  have hall : ∀ n < 256, (∀ x ∈ ofOctet n, x = true) ↔ n = 255 := by decide +kernel
  exact hall n h

theorem ofOctet_eq_zeros {n : ℕ} (h : n < 256) : (∀ x ∈ ofOctet n, x = false) ↔ n = 0 := by
  have hall : ∀ n < 256, (∀ x ∈ ofOctet n, x = false) ↔ n = 0 := by decide +kernel
  exact hall n h

/-- Between two octets the bits do not rise if the first is all ones or the second all zeros. -/
theorem ofOctet_ge_ofOctet {m n : ℕ} (hm : m < 256) (hn : n < 256) :
    (∀ x ∈ ofOctet m, ∀ y ∈ ofOctet n, x ≥ y) ↔ m = 255 ∨ n = 0 := by
  rw [← ofOctet_eq_ones hm, ← ofOctet_eq_zeros hn]
  constructor
  · intro h
    by_contra hnot
    simp only [not_or, not_forall] at hnot
    obtain ⟨⟨x, hx, hx'⟩, y, hy, hy'⟩ := hnot
    have hle := h x hx y hy
    simp only [Bool.not_eq_true, Bool.not_eq_false] at hx' hy'
    rw [hx', hy'] at hle
    exact absurd hle (by decide)
  · rintro (hones | hzeros) x hx y hy
    · rw [hones x hx]
      exact Bool.le_true y
    · rw [hzeros y hy]
      exact Bool.false_le x

/-- The bits of some octets are a run of ones and then of zeros if and only if those of each are
and after an octet that is not all ones there are only zeros. -/
theorem run_iff {octets : List ℕ} (h : ∀ n ∈ octets, n < 256) :
    (∃ m n, octets.flatMap ofOctet = List.replicate m true ++ List.replicate n false) ↔
      (∀ n ∈ octets, n ∈ maskOctets) ∧ octets.Pairwise fun m n => m = 255 ∨ n = 0 := by
  rw [exists_replicate_iff, List.pairwise_flatMap]
  refine and_congr (forall₂_congr fun n hn => pairwise_ofOctet (h n hn)) ?_
  exact List.Pairwise.iff_of_mem fun hm hn => ofOctet_ge_ofOctet (h _ hm) (h _ hn)

end IotPanel.Bits
