import Mathlib.Data.String.Basic

/-!
Splitting text at a one-character separator.

`String.splitOn` walks the text by byte positions, matching the separator as it goes. For a
separator of one character it cuts the characters of the text at that character, as
`List.splitOn` does (`splitOn_singleton`); paths, split at their slashes, are the case the
library's path handling uses (`splitOn_slash`).
-/

open String

namespace DocWeaver.Text

theorem get_singleton (c : Char) : Pos.Raw.get (String.singleton c) 0 = c := by
  have := get_of_valid [] [c]
  simpa using this

theorem next_singleton (c : Char) : Pos.Raw.next (String.singleton c) 0 = ⟨c.utf8Size⟩ := by
  have := next_of_valid [] c []
  simpa using this

theorem atEnd_singleton (c : Char) : Pos.Raw.atEnd (String.singleton c) ⟨c.utf8Size⟩ = true := by
  have := atEnd_of_valid [c] []
  simpa using this

/-- Splitting at a one-character separator, from the piece `m` read after the pieces `acc`: the
text is `l ++ m ++ r` and the walk stands at the end of `m`. -/
theorem splitOnAux_singleton (c : Char) (r : List Char) :
    ∀ (l m : List Char) (acc : List String),
      splitOnAux (ofList (l ++ m ++ r)) (String.singleton c) ⟨utf8Len l⟩ ⟨utf8Len l + utf8Len m⟩ 0
          acc =
        acc.reverse ++ (List.splitOnPPrepend (· == c) r m.reverse).map ofList := by
  induction r with
  | nil =>
    intro l m acc
    have hend : Pos.Raw.atEnd (ofList (l ++ m ++ [])) ⟨utf8Len l + utf8Len m⟩ = true := by
      rw [← utf8Len_append]
      exact (atEnd_of_valid (l ++ m) []).mpr rfl
    rw [splitOnAux, if_pos hend]
    simp only [extract_of_valid l m [], List.reverse_cons, List.splitOnPPrepend_nil,
      List.reverse_reverse, List.map_cons, List.map_nil]
  | cons x r ih =>
    intro l m acc
    have hend : Pos.Raw.atEnd (ofList (l ++ m ++ x :: r)) ⟨utf8Len l + utf8Len m⟩ = false := by
      rw [← utf8Len_append]
      exact Bool.eq_false_iff.mpr fun h =>
        List.cons_ne_nil _ _ ((atEnd_of_valid (l ++ m) (x :: r)).mp h)
    have hget : Pos.Raw.get (ofList (l ++ m ++ x :: r)) ⟨utf8Len l + utf8Len m⟩ = x := by
      rw [← utf8Len_append]
      exact get_of_valid (l ++ m) (x :: r)
    have hnext : Pos.Raw.next (ofList (l ++ m ++ x :: r)) ⟨utf8Len l + utf8Len m⟩ =
        ⟨utf8Len l + utf8Len m + x.utf8Size⟩ := by
      rw [← utf8Len_append]
      exact next_of_valid (l ++ m) x r
    rw [splitOnAux, if_neg (by rw [hend]; decide), hget, get_singleton]
    by_cases hx : x = c
    · -- the separator ends the piece `m`, and the next piece starts after it
      subst hx
      rw [if_pos (beq_self_eq_true x), hnext, next_singleton, if_pos (atEnd_singleton x)]
      have hunoff : Pos.Raw.unoffsetBy ⟨utf8Len l + utf8Len m + x.utf8Size⟩ ⟨x.utf8Size⟩ =
          ⟨utf8Len l + utf8Len m⟩ := by
        simp [Pos.Raw.unoffsetBy]
      have hrest := ih (l ++ m ++ [x]) [] (ofList m :: acc)
      rw [show l ++ m ++ [x] ++ [] ++ r = l ++ m ++ x :: r by simp,
        show utf8Len (l ++ m ++ [x]) + utf8Len [] = utf8Len l + utf8Len m + x.utf8Size by
          simp [Nat.add_assoc],
        show utf8Len (l ++ m ++ [x]) = utf8Len l + utf8Len m + x.utf8Size by
          simp [Nat.add_assoc]] at hrest
      rw [hunoff, extract_of_valid l m (x :: r), hrest,
        @List.splitOnPPrepend_cons_pos Char (· == x) x r m.reverse (beq_self_eq_true x)]
      simp
    · -- any other character joins the piece
      rw [if_neg (by simpa using hx)]
      have hzero : Pos.Raw.unoffsetBy ⟨utf8Len l + utf8Len m⟩ 0 = ⟨utf8Len l + utf8Len m⟩ := by
        simp [Pos.Raw.unoffsetBy]
      have hrest := ih l (m ++ [x]) acc
      rw [show l ++ (m ++ [x]) ++ r = l ++ m ++ x :: r by simp,
        show utf8Len l + utf8Len (m ++ [x]) = utf8Len l + utf8Len m + x.utf8Size by
          simp [Nat.add_assoc]] at hrest
      rw [hzero, hnext, hrest, List.splitOnPPrepend_cons_neg (by simpa using hx)]
      simp

theorem splitOn_singleton (s : String) (c : Char) :
    s.splitOn (String.singleton c) = (s.toList.splitOn c).map ofList := by
  have h := splitOnAux_singleton c s.toList [] [] []
  simp only [List.nil_append, utf8Len_nil, Nat.add_zero, List.reverse_nil,
    String.ofList_toList] at h
  rw [String.splitOn, if_neg (by simp), List.splitOn_eq_splitOnP, List.splitOnP_eq_splitOnPPrepend]
  exact h

theorem splitOn_slash (s : String) : s.splitOn "/" = (s.toList.splitOn '/').map ofList :=
  splitOn_singleton s '/'

end DocWeaver.Text
