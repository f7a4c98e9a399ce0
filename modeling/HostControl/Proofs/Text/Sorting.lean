/-
Module: HostControl.Proofs.Text.Sorting
Purpose: Lists sorted by a text that each item has, such as its name. They are in the order of those texts, and items
  of one text stay as they were.
Main exports: sortedBy_pairwise, filter_sortedBy
-/

namespace HostControl.Text

variable {α : Type} (key : α → String)

theorem sortedBy_trans (a b c : α) (below : decide (key a ≤ key b) = true) (above : decide (key b ≤ key c) = true) :
    decide (key a ≤ key c) = true :=
  decide_eq_true (String.le_trans (of_decide_eq_true below) (of_decide_eq_true above))

theorem sortedBy_total (a b : α) : (decide (key a ≤ key b) || decide (key b ≤ key a)) = true := by
  simpa using String.le_total (key a) (key b)

/-- Sorting puts items in the order of their texts. -/
theorem sortedBy_pairwise (items : List α) :
    (items.mergeSort fun a b => key a ≤ key b).Pairwise fun a b => key a ≤ key b :=
  (List.pairwise_mergeSort (sortedBy_trans key) (sortedBy_total key) items).imp of_decide_eq_true

/-- Sorting keeps items of one text as they were: they are sorted already, and so stay a sublist. -/
theorem filter_sortedBy (text : String) (items : List α) :
    (items.mergeSort fun a b => key a ≤ key b).filter (key · = text) = items.filter (key · = text) := by
  have sorted : (items.filter (key · = text)).Pairwise fun a b => decide (key a ≤ key b) = true := by
    rw [List.pairwise_iff_forall_sublist]
    intro a b pair
    have own : ∀ x ∈ [a, b], key x = text := fun x member =>
      of_decide_eq_true (List.mem_filter.1 (pair.subset member)).2
    rw [own a (by simp), own b (by simp)]
    exact decide_eq_true (String.le_refl text)
  have kept := (List.sublist_mergeSort (sortedBy_trans key) (sortedBy_total key) sorted
    List.filter_sublist).filter (key · = text)
  rw [List.filter_filter] at kept
  simp only [Bool.and_self] at kept
  have perm := (List.mergeSort_perm items fun a b => decide (key a ≤ key b)).filter (key · = text)
  exact (kept.eq_of_length perm.length_eq.symm).symm

end HostControl.Text
