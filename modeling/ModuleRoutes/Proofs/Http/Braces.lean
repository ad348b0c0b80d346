import ModuleRoutes.Http.Router
import ModuleRoutes.Proofs.Text.Separated

/-!
# Paths with braces

A router writes the parameters of a path in braces. This keeps the segments of a path apart
(`ModuleRoutes.Http.splitOn_toList_bracedPath`) and paths without braces, too
(`ModuleRoutes.Http.bracedPath_inj`).
-/

namespace ModuleRoutes

namespace Http

/-- The segment of a route's path that a segment with braces stands for. -/
def unbracedSegment : List Char → List Char
  | '\x7b' :: rest => ':' :: rest.dropLast
  | part => part

theorem bracedSegment_of_ne {c : Char} (plain : c ≠ ':') (rest : List Char) :
    bracedSegment (c :: rest) = c :: rest := by
  simp [bracedSegment, plain]

theorem unbracedSegment_bracedSegment {part : List Char} (plain : '\x7b' ∉ part) :
    unbracedSegment (bracedSegment part) = part := by
  cases part with
  | nil => rfl
  | cons c rest =>
      by_cases parameter : c = ':'
      · subst parameter
        simp [bracedSegment, unbracedSegment]
      · have noBrace : c ≠ '\x7b' := fun same => plain (same ▸ List.mem_cons_self)
        rw [bracedSegment_of_ne parameter]
        simp [unbracedSegment, noBrace]

theorem slash_not_mem_bracedSegment {part : List Char} (free : '/' ∉ part) :
    '/' ∉ bracedSegment part := by
  unfold bracedSegment
  split
  · simpa using free
  · exact free

/-- Putting parameters in braces keeps the segments of a path apart. -/
theorem splitOn_toList_bracedPath (path : String) :
    Text.splitOn '/' (bracedPath path).toList =
      (Text.splitOn '/' path.toList).map bracedSegment := by
  rw [bracedPath, String.toList_ofList]
  refine Text.splitOn_joinWith (List.forall_mem_map.mpr fun part member => ?_) ?_
  · exact slash_not_mem_bracedSegment (Text.not_mem_of_mem_splitOn member)
  · simpa using Text.splitOn_ne_nil '/' path.toList

theorem splitOn_bracedPath {path : String} (plain : '\x7b' ∉ path.toList) :
    (Text.splitOn '/' (bracedPath path).toList).map unbracedSegment =
      Text.splitOn '/' path.toList := by
  rw [splitOn_toList_bracedPath, List.map_map]
  refine (List.map_congr_left fun part member => ?_).trans (List.map_id _)
  exact unbracedSegment_bracedSegment fun brace => plain (Text.mem_of_mem_splitOn member brace)

/-- Paths without braces stay apart when parameters are put in braces. -/
theorem bracedPath_inj {left right : String} (leftPlain : '\x7b' ∉ left.toList)
    (rightPlain : '\x7b' ∉ right.toList) (same : bracedPath left = bracedPath right) :
    left = right := by
  have segments : Text.splitOn '/' left.toList = Text.splitOn '/' right.toList := by
    rw [← splitOn_bracedPath leftPlain, ← splitOn_bracedPath rightPlain, same]
  apply String.toList_injective
  rw [← Text.joinWith_splitOn '/' left.toList, segments, Text.joinWith_splitOn]

end Http

end ModuleRoutes
