import Mathlib.Data.List.Forall2
import Mathlib.Data.List.Induction

/-! Chains of digests. A value is replaced over and over by a digest that covers it
and one more item. If nothing that was hashed collides, the last value determines
the first one and the items. -/

namespace Lib.HashChain

variable {D B O : Type} (after : D → O → D) (input : D → O → List B)

/-- Everything that is hashed on the way, the first first. -/
def inputs : D → List O → List B
  | _, [] => []
  | d, o :: os => input d o ++ inputs (after d o) os

variable {after input}

theorem inputs_append (d : D) (os : List O) (o : O) :
    inputs after input d (os ++ [o]) = inputs after input d os ++ input (os.foldl after d) o := by
  induction os generalizing d with
  | nil => simp [inputs]
  | cons first os ih => simp [inputs, ih]

/-- The last value of a chain determines how it began and what went into it. `Seen` are the inputs
among which no two collide. -/
theorem determines {same : O → O → Prop} {Seen : B → Prop} {fits : O → Prop} {start start' : D} {os os' : List O}
    (step : ∀ {d d' o o'}, fits o → fits o' → (∀ x ∈ input d o, Seen x) → (∀ x ∈ input d' o', Seen x) →
      after d o = after d' o' → d = d' ∧ same o o')
    (apart : ∀ {d o}, (∀ x ∈ input d o, Seen x) → after d o ≠ start ∧ after d o ≠ start')
    (items : ∀ o ∈ os, fits o) (items' : ∀ o ∈ os', fits o)
    (seen : ∀ x ∈ inputs after input start os, Seen x) (seen' : ∀ x ∈ inputs after input start' os', Seen x)
    (last : os.foldl after start = os'.foldl after start') : start = start' ∧ List.Forall₂ same os os' := by
  -- from the end of both chains to their beginning
  induction os using List.reverseRecOn generalizing os' with
  | nil =>
    rcases List.eq_nil_or_concat os' with rfl | ⟨front, o', rfl⟩
    · exact ⟨last, .nil⟩
    · rw [List.concat_eq_append, inputs_append] at seen'
      rw [List.concat_eq_append, List.foldl_append] at last
      exact absurd last.symm (apart fun x member => seen' x (List.mem_append_right _ member)).1
  | append_singleton os o ih =>
    rw [inputs_append] at seen
    have own : ∀ x ∈ input (os.foldl after start) o, Seen x := fun x member => seen x (List.mem_append_right _ member)
    rcases List.eq_nil_or_concat os' with rfl | ⟨front, o', rfl⟩
    · rw [List.foldl_append] at last
      exact absurd last (apart own).2
    · rw [List.concat_eq_append, inputs_append] at seen'
      rw [List.concat_eq_append, List.foldl_append, List.foldl_append] at last
      rw [List.concat_eq_append] at items'
      obtain ⟨before, item⟩ := step (items o (by simp)) (items' o' (by simp)) own
        (fun x member => seen' x (List.mem_append_right _ member)) last
      obtain ⟨starts, rest⟩ := ih (fun x member => items x (List.mem_append_left _ member))
        (fun x member => items' x (List.mem_append_left _ member))
        (fun x member => seen x (List.mem_append_left _ member))
        (fun x member => seen' x (List.mem_append_left _ member)) before
      refine ⟨starts, ?_⟩
      rw [List.concat_eq_append]
      exact List.rel_append rest (.cons item .nil)

end Lib.HashChain
