import Mathlib.Data.String.Basic

/-!
# Splitting texts

A text is cut at a separator into the pieces it was joined from, if none of them has the separator.
-/

namespace Alus.Lib

open String

/-- The state of a split: what comes before `l` has been cut off, and `m` is the piece so far. -/
theorem splitOnAux_ofList (c : Char) (l m r : List Char) (done : List String) :
    splitOnAux (ofList (l ++ m ++ r)) (ofList [c]) ⟨utf8Len l⟩ ⟨utf8Len l + utf8Len m⟩ 0 done =
      done.reverse ++ (List.splitOnPPrepend (· == c) r m.reverse).map ofList := by
  induction r generalizing l m done with
  | nil =>
    have hend : (⟨utf8Len l + utf8Len m⟩ : Pos.Raw).atEnd (ofList (l ++ m ++ [])) = true := by
      simpa using atEnd_of_valid (l ++ m) []
    rw [splitOnAux, if_pos hend]
    simpa using extract_of_valid l m []
  | cons d r ih =>
    have hend : ¬ (⟨utf8Len l + utf8Len m⟩ : Pos.Raw).atEnd (ofList (l ++ m ++ d :: r)) = true := by
      have hiff := atEnd_of_valid (l ++ m) (d :: r)
      rw [utf8Len_append] at hiff
      rw [hiff]
      exact List.cons_ne_nil d r
    have hget : Pos.Raw.get (ofList (l ++ m ++ d :: r)) ⟨utf8Len l + utf8Len m⟩ = d := by
      have hvalid := get_of_valid (l ++ m) (d :: r)
      rwa [utf8Len_append] at hvalid
    have hnext : Pos.Raw.next (ofList (l ++ m ++ d :: r)) ⟨utf8Len l + utf8Len m⟩ =
        ⟨utf8Len l + utf8Len m + d.utf8Size⟩ := by
      have hvalid := next_of_valid (l ++ m) d r
      rwa [utf8Len_append] at hvalid
    -- the separator is one character
    have hget' : Pos.Raw.get (ofList [c]) 0 = c := get_of_valid [] [c]
    have hnext' : Pos.Raw.next (ofList [c]) 0 = ⟨c.utf8Size⟩ := by
      simpa using next_of_valid [] c []
    have hend' : (⟨c.utf8Size⟩ : Pos.Raw).atEnd (ofList [c]) = true := by
      simpa using atEnd_of_valid [c] []
    have hsame : (⟨utf8Len l + utf8Len m⟩ : Pos.Raw).unoffsetBy 0 = ⟨utf8Len l + utf8Len m⟩ := by
      simp [Pos.Raw.unoffsetBy]
    rw [splitOnAux, if_neg hend]
    simp only [hget, hget', hnext, hnext', hend', hsame, if_true, List.splitOnPPrepend_cons_eq_if]
    by_cases h : d = c
    · subst h
      have hback : (⟨utf8Len l + utf8Len m + d.utf8Size⟩ : Pos.Raw).unoffsetBy ⟨d.utf8Size⟩ =
          ⟨utf8Len l + utf8Len m⟩ := by simp [Pos.Raw.unoffsetBy]
      have hpiece := extract_of_valid l m (d :: r)
      have hrest := ih (l ++ m ++ [d]) [] (ofList m :: done)
      simp only [beq_self_eq_true, if_true, hback, hpiece]
      simpa [Nat.add_assoc] using hrest
    · have hrest := ih l (m ++ [d]) done
      simp only [beq_iff_eq, h, if_false]
      simpa [Nat.add_assoc] using hrest

theorem splitOn_ofList (c : Char) (text : String) :
    text.splitOn (ofList [c]) = (text.toList.splitOn c).map ofList := by
  have h := splitOnAux_ofList c [] [] text.toList []
  rw [splitOn, if_neg (by simp)]
  simpa [List.splitOn] using h

/-- What was joined is split again. -/
theorem splitOn_intercalate {c : Char} {pieces : List String} (hne : pieces ≠ [])
    (h : ∀ piece ∈ pieces, c ∉ piece.toList) :
    (String.intercalate (ofList [c]) pieces).splitOn (ofList [c]) = pieces := by
  rw [splitOn_ofList, toList_intercalate, toList_ofList, List.splitOn_intercalate]
  · simp
  · simpa using h
  · simpa using hne

end Alus.Lib
