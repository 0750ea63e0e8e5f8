import Mathlib.Order.CompletePartialOrder
import Mathlib.Order.Interval.Set.Disjoint

/-!
# A bump allocator

One pointer, which an allocation moves up by the size it is asked for, and which can be raised
past something that is put in its way.  The ranges handed out are kept, and the values that the
pointer had, both in the order of time.

`Ordered` is the invariant: every range begins where the earlier ones have ended, at the latest.
So the ranges are disjoint in pairs (**`Ordered.disjoint`**), they are disjoint from whatever the
pointer was raised past before the first of them (**`Above.disjoint`**), and the pointer never goes
back (`Ordered.past`).
-/

namespace Bump

structure State where
  ptr : ℕ
  ranges : List (ℕ × ℕ)
  past : List ℕ

/-- The addresses of a range, given by its base and its size. -/
def span (r : ℕ × ℕ) : Set ℕ := Set.Ico r.1 (r.1 + r.2)

def State.alloc (b : State) (size : ℕ) : State where
  ptr := b.ptr + size
  ranges := b.ranges ++ [(b.ptr, size)]
  past := b.past ++ [b.ptr]

def State.raise (b : State) (top : ℕ) : State where
  ptr := max b.ptr top
  ranges := b.ranges
  past := b.past ++ [b.ptr]

variable {b : State} {size top floor : ℕ}

lemma span_disjoint {r r' : ℕ × ℕ} (h : r.1 + r.2 ≤ r'.1) : Disjoint (span r) (span r') :=
  Set.Ico_disjoint_Ico.mpr (le_trans (min_le_left _ _) (le_trans h (le_max_right _ _)))

/-! ## Order -/

structure Ordered (b : State) : Prop where
  ranges : b.ranges.Pairwise fun r r' => r.1 + r.2 ≤ r'.1
  below : ∀ r ∈ b.ranges, r.1 + r.2 ≤ b.ptr
  past : (b.past ++ [b.ptr]).Pairwise (· ≤ ·)

/-- One more value on top of an ordered list. -/
lemma pairwise_snoc {l : List ℕ} {x y : ℕ} (h : (l ++ [x]).Pairwise (· ≤ ·)) (hxy : x ≤ y) :
    (l ++ [x] ++ [y]).Pairwise (· ≤ ·) := by
  refine List.pairwise_append.mpr ⟨h, List.pairwise_singleton _ _, ?_⟩
  intro a ha z hz
  obtain rfl := List.mem_singleton.mp hz
  rcases List.mem_append.mp ha with ha | ha
  · have hax := (List.pairwise_append.mp h).2.2 a ha x (List.mem_singleton_self x)
    exact le_trans hax hxy
  · obtain rfl := List.mem_singleton.mp ha
    exact hxy

lemma Ordered.alloc (h : Ordered b) (size : ℕ) : Ordered (b.alloc size) where
  ranges := by
    refine List.pairwise_append.mpr ⟨h.ranges, List.pairwise_singleton _ _, ?_⟩
    intro r hr r' hr'
    obtain rfl := List.mem_singleton.mp hr'
    exact h.below r hr
  below := by
    intro r hr
    rcases List.mem_append.mp hr with hr | hr
    · exact le_trans (h.below r hr) (Nat.le_add_right _ _)
    · obtain rfl := List.mem_singleton.mp hr
      exact le_rfl
  past := pairwise_snoc h.past (Nat.le_add_right _ _)

lemma Ordered.raise (h : Ordered b) (top : ℕ) : Ordered (b.raise top) where
  ranges := h.ranges
  below := fun r hr => le_trans (h.below r hr) (le_max_left _ _)
  past := pairwise_snoc h.past (le_max_left _ _)

/-- **What was handed out is disjoint in pairs.** -/
theorem Ordered.disjoint (h : Ordered b) :
    b.ranges.Pairwise fun r r' => Disjoint (span r) (span r') :=
  h.ranges.imp span_disjoint

/-! ## What the pointer was raised past -/

/-- The pointer and everything handed out is at or above the floor. -/
structure Above (floor : ℕ) (b : State) : Prop where
  ptr : floor ≤ b.ptr
  ranges : ∀ r ∈ b.ranges, floor ≤ r.1

lemma Above.alloc (h : Above floor b) (size : ℕ) : Above floor (b.alloc size) where
  ptr := le_trans h.ptr (Nat.le_add_right _ _)
  ranges := by
    intro r hr
    rcases List.mem_append.mp hr with hr | hr
    · exact h.ranges r hr
    · obtain rfl := List.mem_singleton.mp hr
      exact h.ptr

lemma Above.raise (h : Above floor b) (top : ℕ) : Above floor (b.raise top) where
  ptr := le_trans h.ptr (le_max_left _ _)
  ranges := h.ranges

/-- As long as nothing was handed out, the pointer can be raised past anything. -/
lemma above_raise (hnone : b.ranges = []) (hle : floor ≤ top) : Above floor (b.raise top) where
  ptr := le_trans hle (le_max_right _ _)
  ranges := by
    intro r hr
    rw [State.raise, hnone] at hr
    cases hr

/-- **What was handed out is disjoint from what the pointer was raised past.** -/
theorem Above.disjoint (h : Above floor b) {seg : ℕ × ℕ} (hseg : seg.1 + seg.2 ≤ floor)
    {r : ℕ × ℕ} (hr : r ∈ b.ranges) : Disjoint (span seg) (span r) :=
  span_disjoint (le_trans hseg (h.ranges r hr))

end Bump
