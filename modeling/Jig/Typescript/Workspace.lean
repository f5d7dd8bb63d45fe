import Jig.Lib.Text
import Jig.Lib.Wildcard

/-!
# Segments of workspace patterns

`segment_matches` (`jig-typescript/src/workspace.rs`) compares a directory name with a segment of a
workspace pattern. It accepts the names that the segment gives when each star is replaced by some
text (`segment_matches_iff`).
-/

namespace Jig.Typescript

open Lib

/-- The text behind the first occurrence of another one: the second half of `str::split_once`. -/
def afterText (text s : String) : Option String :=
  (afterFirst text.toList s.toList).map String.ofList

def segmentMatches (pattern name : String) : Bool :=
  if !Text.containsChar '*' pattern then
    pattern = name
  else
    match Text.split '*' pattern with
    | [] => false -- a split has a first part
    | first :: parts =>
        (Text.stripStart first name).any fun remaining =>
          (Text.stripEnd (parts.getLastD "") remaining).any fun remaining =>
            (parts.dropLast.foldlM (fun remaining literal => afterText literal remaining)
              remaining).isSome

theorem foldlM_afterText (literals : List (List Char)) (s : String) :
    ((literals.map String.ofList).foldlM (fun remaining literal => afterText literal remaining)
      s).isSome = findInOrder literals s.toList := by
  unfold findInOrder
  induction literals generalizing s with
  | nil => rfl
  | cons literal literals ih =>
      rw [List.map_cons, List.foldlM_cons, List.foldlM_cons, afterText, String.toList_ofList]
      cases afterFirst literal s.toList with
      | none => rfl
      | some rest => simpa using ih (String.ofList rest)

/-- **Segments.** A name matches exactly when it comes from the pattern by replacing each star,
independently of the others, with some text. -/
theorem segment_matches_iff (pattern name : String) :
    segmentMatches pattern name = true ↔ Fills '*' pattern.toList name.toList := by
  rw [fills_iff_parts]
  unfold segmentMatches Text.containsChar Text.split
  rcases splitOn_cases '*' pattern.toList with ⟨hstar, hone⟩ | ⟨hstar, first, middle, last, hparts⟩
  · rw [hone, if_pos (by simpa using hstar), decide_eq_true_iff]
    exact ⟨fun h => h ▸ rfl, fun h => (String.toList_inj.mp h).symm⟩
  · have hlist : (first :: middle ++ [last]).map String.ofList =
        String.ofList first :: (middle.map String.ofList ++ [String.ofList last]) := by simp
    rw [hparts, if_neg (by simpa using hstar), hlist, partsFill_iff]
    -- the parts at the ends are stripped, and the others are looked for in what is left
    simp only [List.getLastD_concat, List.dropLast_concat, Option.any_eq_true,
      Text.stripStart_eq_some,
      Text.stripEnd_eq_some, foldlM_afterText, findInOrder_iff, String.toList_ofList]
    constructor
    · rintro ⟨rest, hname, between, hrest, hmiddle⟩
      exact ⟨between.toList, by rw [hname, hrest, List.append_assoc], hmiddle⟩
    · rintro ⟨between, hname, hmiddle⟩
      exact ⟨String.ofList (between ++ last), by simpa using hname, String.ofList between, by simp,
        by simpa using hmiddle⟩

end Jig.Typescript
