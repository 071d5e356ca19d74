import Mathlib.Data.List.Basic
import NameResolution.CommandLine.Path

/-!
# Named files — the suffix of a path

A file whose name ends with `.bach` has that suffix, unless nothing stands between the point and
the last slash, or the beginning of the name. Then the point is the first character of a part.

* `pieces_append` — what a name ends with is in its last piece.
* `isBare` — the last part of a name is `.bach` alone.
* `suffix_ofString` — the suffix of a name that ends with `.bach`.
-/

namespace NameResolution.CommandLine

namespace Path

/-! ## Pieces -/

variable {cs front piece word : List Char}

theorem pieces_ne_nil (cs : List Char) : pieces cs ≠ [] := by
  fun_cases pieces cs <;> exact List.cons_ne_nil _ _

theorem pieces_cons {c : Char} (hc : c ≠ '/') {others : List (List Char)}
    (h : pieces cs = piece :: others) : pieces (c :: cs) = (c :: piece) :: others := by
  rw [pieces, h]
  exact hc

/-- A text without slashes is one piece. -/
theorem pieces_word (hWord : '/' ∉ word) : pieces word = [word] := by
  induction word with
  | nil => rfl
  | cons c word ih =>
    rw [List.mem_cons, not_or] at hWord
    exact pieces_cons (Ne.symm hWord.1) (ih hWord.2)

theorem pieces_slash (front rest : List Char) :
    pieces (front ++ '/' :: rest) = pieces front ++ pieces rest := by
  induction front with
  | nil => rfl
  | cons c front ih =>
    by_cases hc : c = '/'
    · subst hc
      exact congrArg ([] :: ·) ih
    · obtain ⟨piece, others, hFront⟩ := List.exists_cons_of_ne_nil (pieces_ne_nil front)
      rw [hFront] at ih
      rw [pieces_cons hc hFront]
      exact pieces_cons hc ih

/-- A text without slashes, or one that is cut at its last slash. -/
theorem last_slash (cs : List Char) :
    '/' ∉ cs ∨ ∃ front piece, cs = front ++ '/' :: piece ∧ '/' ∉ piece := by
  by_cases hSlash : '/' ∈ cs
  · obtain ⟨back, front, hText, hBack⟩ :=
      List.eq_append_cons_of_mem (List.mem_reverse.mpr hSlash)
    refine .inr ⟨front.reverse, back.reverse, ?_, fun h => hBack (List.mem_reverse.mp h)⟩
    rw [← List.reverse_reverse cs, hText]
    simp
  · exact .inl hSlash

/-- What a text ends with is the end of its last piece, and all of it right behind a slash. -/
theorem pieces_append (hWord : '/' ∉ word) (cs : List Char) :
    ∃ others piece, pieces (cs ++ word) = others ++ [piece ++ word] ∧
      (piece = [] ↔ cs = [] ∨ cs.getLast? = some '/') := by
  obtain hNone | ⟨front, piece, rfl, hPiece⟩ := last_slash cs
  · refine ⟨[], cs, pieces_word ?_, (or_iff_left fun h => hNone (List.mem_of_getLast? h)).symm⟩
    rw [List.mem_append, not_or]
    exact ⟨hNone, hWord⟩
  · refine ⟨pieces front, piece, ?_, ?_⟩
    -- what stands behind the last slash is one piece, with the word at its end
    · have hLast : '/' ∉ piece ++ word := by
        rw [List.mem_append, not_or]
        exact ⟨hPiece, hWord⟩
      rw [List.append_assoc, List.cons_append, pieces_slash, pieces_word hLast]
    · constructor
      · rintro rfl
        exact .inr List.getLast?_concat
      · rintro (h | h)
        · exact absurd h (by simp)
        · by_contra hSome
          obtain ⟨c, piece, rfl⟩ := List.exists_cons_of_ne_nil hSome
          rw [List.getLast?_append_cons, List.getLast?_cons_cons] at h
          exact hPiece (List.mem_of_getLast? h)

/-! ## Suffixes -/

/-- A point starts a suffix if something is in front of it. -/
theorem suffixOf_append {ending : List Char} (hSome : ending ≠ []) (hPoint : '.' ∉ ending)
    (piece : List Char) :
    suffixOf (piece ++ '.' :: ending) = if piece = [] then [] else '.' :: ending := by
  -- the suffix is found from the end of the name, up to the last point
  have hEnding : ((piece ++ '.' :: ending).reverse.takeWhile (· != '.')).reverse = ending := by
    rw [List.reverse_append, List.reverse_cons, List.append_assoc, List.takeWhile_append_of_pos]
    · simp
    · intro c hc
      rw [bne_iff_ne]
      rintro rfl
      exact hPoint (List.mem_reverse.mp hc)
  have hLength : ending.length + 1 = (piece ++ '.' :: ending).length ↔ piece = [] := by
    rw [List.length_append, List.length_cons, ← List.length_eq_zero_iff]
    omega
  rw [suffixOf, hEnding, List.contains_eq_mem, List.isEmpty_eq_false_iff.mpr hSome]
  simp only [hLength]
  simp

/-- The last part of the name is `.bach` alone. -/
def isBare (name : String) : Bool :=
  name == ".bach" || "/.bach".toList.isSuffixOf name.toList

/-- A name that ends with the extension is bare exactly if nothing, or a slash, stands in front. -/
theorem isBare_iff {name : String} (h : name.toList = cs ++ ".bach".toList) :
    isBare name = true ↔ cs = [] ∨ cs.getLast? = some '/' := by
  have hWhole : name = ".bach" ↔ cs = [] := by
    rw [← String.toList_inj, h]
    exact List.append_left_eq_self
  have hBehind : "/.bach".toList <:+ name.toList ↔ cs.getLast? = some '/' := by
    have hSlash : "/.bach".toList = ['/'] ++ ".bach".toList := by decide
    rw [h, hSlash, List.getLast?_eq_some_iff]
    refine exists_congr fun front => ?_
    rw [← List.append_assoc, List.append_left_inj, eq_comm]
  rw [isBare, Bool.or_eq_true, beq_iff_eq, List.isSuffixOf_iff_suffix, hWhole, hBehind]

/-- **Suffixes.** A name that ends with `.bach` has the suffix unless its last part is bare. -/
theorem suffix_ofString {name : String} (hEnding : ".bach".toList <:+ name.toList) :
    (ofString name).suffix = if isBare name then "" else ".bach" := by
  obtain ⟨cs, hName⟩ := hEnding
  have hWord : '/' ∉ ".bach".toList := by decide
  obtain ⟨others, piece, hPieces, hPiece⟩ := pieces_append hWord cs
  -- the last piece is no empty one and no point, so it is a part
  have hKept : [piece ++ ".bach".toList].filter (fun piece => piece != [] && piece != ['.']) =
      [piece ++ ".bach".toList] := by
    refine List.filter_eq_self.mpr (List.forall_mem_singleton.mpr ?_)
    rw [Bool.and_eq_true, bne_iff_ne, bne_iff_ne]
    constructor <;> intro h <;> simpa using congrArg List.length h
  have hLast : (ofString name).parts.getLast? = some (String.ofList (piece ++ ".bach".toList)) := by
    rw [ofString, ← hName, hPieces, List.filter_append, hKept, List.map_append]
    exact List.getLast?_concat
  have hPoint : ".bach".toList = '.' :: "bach".toList := by decide
  rw [suffix, hLast, Option.getD_some, String.toList_ofList, hPoint,
    suffixOf_append (by decide) (by decide)]
  by_cases hNone : piece = []
  · rw [if_pos hNone, if_pos ((isBare_iff hName.symm).mpr (hPiece.mp hNone))]
  · rw [if_neg hNone, if_neg fun hBare => hNone (hPiece.mpr ((isBare_iff hName.symm).mp hBare)),
      ← hPoint, String.ofList_toList]

end Path

end NameResolution.CommandLine
