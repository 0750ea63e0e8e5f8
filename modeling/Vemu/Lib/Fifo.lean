import Mathlib.Data.List.Infix

/-!
# Delivery in order

What a channel with one producer and one consumer is for, whatever it is made of: items wait,
are taken into the channel one by one, and leave it in the order in which they came.  A state
keeps all three lists, and no step changes what they are together (`Step.contents_eq`).  A system
that refines these steps has therefore delivered a prefix of its input, every item once and in
order: **`delivered_isPrefix`**.
-/

/-- The items that were delivered, those in the channel, and those that wait. -/
@[ext]
structure Fifo (α : Type*) where
  delivered : List α
  inFlight : List α
  waiting : List α

namespace Fifo

variable {α : Type*} {c c' : Fifo α}

/-- Everything, from the first item on. -/
def contents (c : Fifo α) : List α := c.delivered ++ c.inFlight ++ c.waiting

/-- One step of the channel, or of something inside it that does not show. -/
inductive Step : Fifo α → Fifo α → Prop
  | accept (d q : List α) (a : α) (w : List α) : Step ⟨d, q, a :: w⟩ ⟨d, q ++ [a], w⟩
  | deliver (d : List α) (a : α) (q w : List α) : Step ⟨d, a :: q, w⟩ ⟨d ++ [a], q, w⟩
  | inner (c : Fifo α) : Step c c

lemma Step.contents_eq (h : Step c c') : c'.contents = c.contents := by
  cases h with
  | accept d q a w => simp [contents]
  | deliver d a q w => simp [contents]
  | inner c => rfl

/-- **What is delivered is a prefix of what there is.** -/
theorem delivered_isPrefix (c : Fifo α) : c.delivered <+: c.contents := by
  rw [contents, List.append_assoc]
  exact List.prefix_append _ _

end Fifo
