import Mathlib.Data.List.Basic
import Mathlib.Data.List.Nodup

/-!
# Interleavings and stable sorting

Several sequences run side by side give an interleaving of them: each keeps its
order, and nothing else is fixed. A stable sort makes all interleavings alike if
items that it cannot tell apart come from one sequence only.
-/

namespace AssemblyBrowser

/-!
## Interleavings
-/

/-- A list that takes from the front of the sequences, one item at a time, until all are used
up. -/
inductive Interleaving {α : Type} : List (List α) → List α → Prop where
  | done {sequences : List (List α)} (hempty : ∀ sequence ∈ sequences, sequence = []) :
      Interleaving sequences []
  | next {before after : List (List α)} {first : α} {rest merged : List α}
      (hrest : Interleaving (before ++ rest :: after) merged) :
      Interleaving (before ++ (first :: rest) :: after) (first :: merged)

namespace Interleaving

variable {α : Type}

theorem flatten_eq_nil {sequences : List (List α)}
    (hempty : ∀ sequence ∈ sequences, sequence = []) : sequences.flatten = [] :=
  List.flatten_eq_nil_iff.mpr hempty

/-- An interleaving has the items of all sequences. -/
theorem perm {sequences : List (List α)} {merged : List α}
    (h : Interleaving sequences merged) : merged.Perm sequences.flatten := by
  induction h with
  | done hempty => rw [flatten_eq_nil hempty]
  | @next before after first rest merged hrest ih =>
      rw [List.flatten_append, List.flatten_cons] at ih ⊢
      refine (ih.cons first).trans ?_
      rw [List.cons_append]
      exact List.perm_middle.symm

/-- Leaving items out of an interleaving leaves them out of the sequences. -/
theorem filter {sequences : List (List α)} {merged : List α} (p : α → Bool)
    (h : Interleaving sequences merged) :
    Interleaving (sequences.map (List.filter p)) (merged.filter p) := by
  induction h with
  | done hempty =>
      refine done ?_
      intro sequence hmem
      rcases List.mem_map.mp hmem with ⟨original, horiginal, hfilter⟩
      rw [← hfilter, hempty original horiginal, List.filter_nil]
  | @next before after first rest merged hrest ih =>
      rw [List.map_append, List.map_cons] at ih ⊢
      cases hkeep : p first with
      | true =>
          rw [List.filter_cons_of_pos hkeep, List.filter_cons_of_pos hkeep]
          exact next ih
      | false =>
          have hdrop : ¬ p first = true := by simp [hkeep]
          rw [List.filter_cons_of_neg hdrop, List.filter_cons_of_neg hdrop]
          exact ih

/-- If all items are from one sequence, the interleaving is that sequence. -/
theorem eq_flatten {sequences : List (List α)} {merged : List α}
    (h : Interleaving sequences merged)
    (hone : sequences.Pairwise fun first second => first = [] ∨ second = []) :
    merged = sequences.flatten := by
  induction h with
  | done hempty => rw [flatten_eq_nil hempty]
  | @next before after first rest merged hrest ih =>
      rw [List.pairwise_append, List.pairwise_cons] at hone
      rcases hone with ⟨hbefore, ⟨hafter, hlater⟩, hacross⟩
      have hbeforeEmpty : ∀ sequence ∈ before, sequence = [] := by
        intro sequence hmem
        rcases hacross sequence hmem (first :: rest) List.mem_cons_self with hnil | hnil
        · exact hnil
        · cases hnil
      have hafterEmpty : ∀ sequence ∈ after, sequence = [] := by
        intro sequence hmem
        rcases hafter sequence hmem with hnil | hnil
        · cases hnil
        · exact hnil
      have hrestOne : (before ++ rest :: after).Pairwise
          fun first second => first = [] ∨ second = [] := by
        rw [List.pairwise_append, List.pairwise_cons]
        refine ⟨hbefore, ⟨fun sequence hmem => Or.inr (hafterEmpty sequence hmem), hlater⟩, ?_⟩
        intro sequence hmem _ _
        exact Or.inl (hbeforeEmpty sequence hmem)
      have hmerged := ih hrestOne
      simp only [List.flatten_append, List.flatten_cons, flatten_eq_nil hbeforeEmpty,
        flatten_eq_nil hafterEmpty, List.append_nil, List.nil_append] at hmerged ⊢
      rw [hmerged]

end Interleaving

/-!
## Stable sorting

A sorted list is determined by what it looks like to each class of items that
the order cannot tell apart.
-/

namespace StableSort

variable {α : Type} {le : α → α → Bool}

/-- Whether an order cannot tell two items apart. -/
def tied (le : α → α → Bool) (first second : α) : Bool := le first second && le second first

theorem eq_of_filter_tied {first second : List α} (hrefl : ∀ a, le a a = true)
    (hfirst : first.Pairwise fun a b => le a b = true)
    (hsecond : second.Pairwise fun a b => le a b = true) (hperm : first.Perm second)
    (hties : ∀ a, first.filter (tied le a) = second.filter (tied le a)) : first = second := by
  induction first generalizing second with
  | nil => exact hperm.nil_eq
  | cons a as ih =>
      cases second with
      | nil => exact absurd hperm.symm.nil_eq (by simp)
      | cons b bs =>
          rw [List.pairwise_cons] at hfirst hsecond
          have hself : tied le a a = true := by simp [tied, hrefl]
          have hab : le a b = true := by
            rcases List.mem_cons.mp (hperm.symm.subset List.mem_cons_self) with heq | hmem
            · rw [heq]
              exact hrefl a
            · exact hfirst.1 b hmem
          have hba : le b a = true := by
            rcases List.mem_cons.mp (hperm.subset List.mem_cons_self) with heq | hmem
            · rw [heq]
              exact hrefl b
            · exact hsecond.1 a hmem
          have htied : tied le a b = true := by simp [tied, hab, hba]
          have hhead := hties a
          rw [List.filter_cons_of_pos hself, List.filter_cons_of_pos htied] at hhead
          have heq : a = b := (List.cons.inj hhead).1
          cases heq
          congr 1
          refine ih hfirst.2 hsecond.2 (List.perm_cons a |>.mp hperm) ?_
          intro c
          have hc := hties c
          cases hca : tied le c a with
          | true =>
              rw [List.filter_cons_of_pos hca, List.filter_cons_of_pos hca] at hc
              exact (List.cons.inj hc).2
          | false =>
              have hnot : ¬ tied le c a = true := by simp [hca]
              rw [List.filter_cons_of_neg hnot, List.filter_cons_of_neg hnot] at hc
              exact hc

variable (htrans : ∀ a b c, le a b = true → le b c = true → le a c = true)
  (htotal : ∀ a b, (le a b || le b a) = true)

include htrans htotal

/-- Sorting keeps the order among items that are tied. -/
theorem filter_mergeSort (items : List α) (a : α) :
    (items.mergeSort le).filter (tied le a) = items.filter (tied le a) := by
  have hpairs : (items.filter (tied le a)).Pairwise fun b c => le b c = true := by
    apply List.Pairwise.imp_of_mem (R := fun _ _ => True)
    · intro b c hb hc _
      have hba := (Bool.and_eq_true _ _ ▸ (List.mem_filter.mp hb).2 : _ ∧ _).2
      have hac := (Bool.and_eq_true _ _ ▸ (List.mem_filter.mp hc).2 : _ ∧ _).1
      exact htrans b a c hba hac
    · exact List.pairwise_of_forall (fun _ _ => trivial)
  have hsublist : (items.filter (tied le a)).Sublist (items.mergeSort le) :=
    List.sublist_mergeSort htrans htotal hpairs List.filter_sublist
  have hkept := hsublist.filter (tied le a)
  rw [List.filter_filter] at hkept
  simp only [Bool.and_self] at hkept
  have hlength := ((List.mergeSort_perm items le).filter (tied le a)).length_eq
  exact (hkept.eq_of_length hlength.symm).symm

/-- Lists with the same items, in which tied items stand in the same order, sort to the same. -/
theorem mergeSort_eq {first second : List α} (hperm : first.Perm second)
    (hties : ∀ a, first.filter (tied le a) = second.filter (tied le a)) :
    first.mergeSort le = second.mergeSort le := by
  have hrefl : ∀ a, le a a = true := by
    intro a
    simpa using htotal a a
  apply eq_of_filter_tied hrefl (List.pairwise_mergeSort htrans htotal first)
    (List.pairwise_mergeSort htrans htotal second)
  · exact (List.mergeSort_perm first le).trans
      (hperm.trans (List.mergeSort_perm second le).symm)
  · intro a
    rw [filter_mergeSort htrans htotal, filter_mergeSort htrans htotal, hties a]

/-- What is left out of the items is left out of the sorted list. -/
theorem mergeSort_filter (items : List α) (keep : α → Bool) :
    (items.filter keep).mergeSort le = (items.mergeSort le).filter keep := by
  have hrefl : ∀ a, le a a = true := by
    intro a
    simpa using htotal a a
  apply eq_of_filter_tied hrefl (List.pairwise_mergeSort htrans htotal _)
    ((List.pairwise_mergeSort htrans htotal items).filter keep)
  · exact (List.mergeSort_perm _ le).trans ((List.mergeSort_perm items le).filter keep).symm
  · intro a
    rw [filter_mergeSort htrans htotal, List.filter_comm _ keep, List.filter_comm _ keep,
      filter_mergeSort htrans htotal]

/-- If tied items are never from two sequences, every interleaving sorts to the same list. -/
theorem mergeSort_interleaving {sequences : List (List α)} {merged : List α}
    (h : Interleaving sequences merged)
    (hsources : sequences.Pairwise fun first second =>
      ∀ a ∈ first, ∀ b ∈ second, tied le a b = false) :
    merged.mergeSort le = sequences.flatten.mergeSort le := by
  refine mergeSort_eq htrans htotal h.perm ?_
  intro a
  rw [List.filter_flatten]
  refine (h.filter (tied le a)).eq_flatten ?_
  rw [List.pairwise_map]
  refine hsources.imp ?_
  intro first second hnone
  rcases hfirst : first.filter (tied le a) with _ | ⟨b, bs⟩
  · exact Or.inl rfl
  · right
    rw [List.filter_eq_nil_iff]
    intro c hc hac
    have hb : b ∈ first.filter (tied le a) := hfirst ▸ List.mem_cons_self
    have hab := (List.mem_filter.mp hb).2
    have hbc : tied le b c = true := by
      simp only [tied, Bool.and_eq_true] at hab hac ⊢
      exact ⟨htrans b a c hab.2 hac.1, htrans c a b hac.2 hab.1⟩
    rw [hnone b (List.mem_filter.mp hb).1 c hc] at hbc
    cases hbc

end StableSort
end AssemblyBrowser
