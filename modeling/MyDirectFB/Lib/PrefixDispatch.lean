/-
Dispatch on the beginning of a text: a chain of branches, of which the first
whose word begins the text is taken and given the rest.  In a chain of words none
of which begins another, the order does not matter.
-/
import Mathlib.Data.List.Basic

namespace PrefixDispatch

universe u v

variable {A : Type u} {R : Type v}

/-- A word, and what comes of a text that begins with it. -/
structure Branch (A : Type u) (R : Type v) where
  word : List A
  result : List A → R

/-- A branch behind a word that begins all texts of its family. -/
def Branch.under (front : List A) (branch : Branch A R) : Branch A R :=
  ⟨front ++ branch.word, branch.result⟩

/-- The result of the first branch whose word begins the text. -/
def dispatch [DecidableEq A] (default : R) (text : List A) : List (Branch A R) → R
  | [] => default
  | branch :: branches =>
      if branch.word <+: text then
        branch.result (text.drop branch.word.length)
      else dispatch default text branches

/-- Neither word begins the other. -/
def Apart (first second : List A) : Prop :=
  ¬ first <+: second ∧ ¬ second <+: first

instance [DecidableEq A] : DecidableRel (@Apart A) :=
  fun _ _ => inferInstanceAs (Decidable (_ ∧ _))

variable {default : R} {text rest : List A} {branches : List (Branch A R)}

/-- Words that begin one text begin one another. -/
theorem not_prefix_of_apart {first second : List A} (hapart : Apart first second)
    (hfirst : first <+: text) : ¬ second <+: text := by
  intro hsecond
  rcases Nat.le_total first.length second.length with hle | hle
  · exact hapart.1 (List.prefix_of_prefix_length_le hfirst hsecond hle)
  · exact hapart.2 (List.prefix_of_prefix_length_le hsecond hfirst hle)

variable [DecidableEq A]

theorem dispatch_of_none
    (hnone : ∀ branch ∈ branches, ¬ branch.word <+: text) :
    dispatch default text branches = default := by
  induction branches with
  | nil => rfl
  | cons branch branches ih =>
      rw [dispatch, if_neg (hnone branch List.mem_cons_self)]
      exact ih fun other hother => hnone other (List.mem_cons_of_mem _ hother)

/-- A branch whose word begins the text is taken, if its word is apart from all
others. -/
theorem dispatch_of_mem {branch : Branch A R} (hbranch : branch ∈ branches)
    (happart : branches.Pairwise fun first second =>
      Apart first.word second.word) :
    dispatch default (branch.word ++ rest) branches = branch.result rest := by
  induction branches with
  | nil => cases hbranch
  | cons head branches ih =>
      obtain ⟨hhead, htail⟩ := List.pairwise_cons.mp happart
      have hbegins : branch.word <+: branch.word ++ rest :=
        List.prefix_append _ _
      rcases List.mem_cons.mp hbranch with rfl | hmem
      · rw [dispatch, if_pos hbegins, List.drop_left]
      · have hapart : Apart branch.word head.word := (hhead branch hmem).symm
        rw [dispatch, if_neg (not_prefix_of_apart hapart hbegins)]
        exact ih hmem htail

theorem dispatch_append (front back : List (Branch A R)) :
    dispatch default text (front ++ back) =
      dispatch (dispatch default text back) text front := by
  induction front with
  | nil => rfl
  | cons branch front ih => rw [List.cons_append, dispatch, dispatch, ih]

/-- A family of words with a common beginning dispatches on what follows it. -/
theorem dispatch_under (front : List A) :
    dispatch default (front ++ text) (branches.map (Branch.under front)) =
      dispatch default text branches := by
  induction branches with
  | nil => rfl
  | cons branch branches ih =>
      have hdrop : (front ++ text).drop (front ++ branch.word).length =
          text.drop branch.word.length := by
        rw [List.length_append, ← List.drop_drop, List.drop_left]
      simp only [List.map_cons, dispatch, ih, Branch.under,
        List.prefix_append_right_inj, hdrop]

theorem dispatch_under_of_not {front : List A} (hfront : ¬ front <+: text) :
    dispatch default text (branches.map (Branch.under front)) = default := by
  refine dispatch_of_none fun branch hbranch hbegins => ?_
  obtain ⟨inner, -, rfl⟩ := List.mem_map.mp hbranch
  exact hfront ((List.prefix_append front inner.word).trans hbegins)

end PrefixDispatch
