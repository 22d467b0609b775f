/-
This file is about the lines of a text, and the parts of a path. The library cuts a text at
a separator that is itself a text, by positions; here the separator is one character, so the
lines are those of the list of characters, and there is one more of them than there are line
breaks. A place in the text has a line around it, and before that line come as many others
as there are line breaks before the place.
-/

import Mathlib.Data.List.Basic
import Mathlib.Data.List.DropRight
import Mathlib.Data.String.Basic
import Offside.Host.Path

namespace Offside

theorem splitOnAux_singleton (separator : Char) (text : String) (start stop : String.Pos.Raw)
    (found : List String) :
    String.splitOnAux text (String.singleton separator) start stop 0 found =
      String.splitAux text (· == separator) start stop found := by
  have first : (0 : String.Pos.Raw).get (String.singleton separator) = separator :=
    String.get_of_valid [] [separator]
  have width : (0 : String.Pos.Raw).next (String.singleton separator) = ⟨separator.utf8Size⟩ := by
    rw [String.Pos.Raw.next, first]
    exact String.Pos.Raw.ext (Nat.zero_add _)
  have whole : ((0 : String.Pos.Raw).next (String.singleton separator)).atEnd
      (String.singleton separator) = true := by
    rw [width]
    simp [String.Pos.Raw.atEnd]
  fun_induction String.splitAux text (· == separator) start stop found with
  | case1 start stop found ended lines =>
    rw [String.splitOnAux, if_pos ended]
  | case2 start stop found inside shorter isSeparator next inductionHypothesis =>
    have back :
        next.unoffsetBy ((0 : String.Pos.Raw).next (String.singleton separator)) = stop := by
      rw [width, ← beq_iff_eq.mp isSeparator]
      exact String.Pos.Raw.ext (Nat.add_sub_cancel _ _)
    rw [String.splitOnAux, if_neg inside, first, if_pos isSeparator]
    dsimp only
    rw [if_pos whole, back]
    exact inductionHypothesis
  | case3 start stop found inside shorter other inductionHypothesis =>
    rw [String.splitOnAux, if_neg inside, first, if_neg other, String.Pos.Raw.unoffsetBy_zero]
    exact inductionHypothesis

theorem splitOn_singleton (separator : Char) (text : String) :
    text.splitOn (String.singleton separator) =
      (text.toList.splitOn separator).map String.ofList := by
  have present : ¬ (String.singleton separator == "") = true := by
    simp
  calc text.splitOn (String.singleton separator)
      _ = text.splitToList (· == separator) := by
        rw [String.splitOn, if_neg present]
        exact splitOnAux_singleton separator text 0 0 []
      _ = (text.toList.splitOn separator).map String.ofList :=
        String.splitToList_of_valid text _

/-- The lines of a text are what lies between its line breaks. -/
theorem splitOn_newline (text : String) :
    text.splitOn "\n" = (text.toList.splitOn '\n').map String.ofList :=
  splitOn_singleton '\n' text

/-- The parts of a path are what lies between its slashes. -/
theorem Path.parts_eq (path : String) :
    parts path = ((path.toList.splitOn '/').map String.ofList).filter (· != "") :=
  congrArg (List.filter (· != "")) (splitOn_singleton '/' path)

/-- A text can be told from its lines. -/
theorem eq_of_splitOn_newline {left right : String}
    (same : left.splitOn "\n" = right.splitOn "\n") : left = right := by
  rw [splitOn_newline, splitOn_newline] at same
  have lines : left.toList.splitOn '\n' = right.toList.splitOn '\n' :=
    List.map_injective_iff.mpr (fun _ _ => String.ofList_injective) same
  have joined := congrArg ['\n'].intercalate lines
  rw [List.intercalate_splitOn, List.intercalate_splitOn] at joined
  exact String.toList_injective joined

/-- There is one more line than line breaks. -/
theorem length_splitOn (text : List Char) :
    (text.splitOn '\n').length = text.count '\n' + 1 := by
  rw [List.splitOn]
  induction text with
  | nil => rfl
  | cons c rest inductionHypothesis =>
    rw [List.splitOnP_cons_eq_if_modifyHead, List.count_cons, apply_ite List.length,
      List.length_cons, List.length_modifyHead, inductionHypothesis]
    split <;> rfl

/-- A text has one more line than line breaks. -/
theorem length_splitOn_newline (text : String) :
    (text.splitOn "\n").length = text.toList.count '\n' + 1 := by
  rw [splitOn_newline, List.length_map, length_splitOn]

/-! ### The line around a place -/

/-- The line of the place between two parts of a text. -/
def lineAround (before behind : List Char) : List Char :=
  before.rtakeWhile (· ≠ '\n') ++ behind.takeWhile (· ≠ '\n')

theorem head?_splitOn (text : List Char) :
    (text.splitOn '\n').head? = some (text.takeWhile (· ≠ '\n')) := by
  induction text with
  | nil => rfl
  | cons c rest inductionHypothesis =>
    rw [List.splitOn, List.splitOnP_cons_eq_if_modifyHead]
    by_cases isBreak : c = '\n'
    · rw [if_pos (by simp [isBreak]), List.takeWhile_cons_of_neg (by simp [isBreak])]
      rfl
    · rw [if_neg (by simp [isBreak]), List.takeWhile_cons_of_pos (by simp [isBreak]),
        List.head?_modifyHead, ← List.splitOn, inductionHypothesis]
      rfl

/-- As many lines come before the line of a place as line breaks. -/
theorem getElem?_splitOn (before behind : List Char) :
    ((before ++ behind).splitOn '\n')[before.count '\n']? = some (lineAround before behind) := by
  -- The characters pass from the end of the first part to the start of the second, up to a break.
  induction before using List.reverseRecOn generalizing behind with
  | nil => rw [List.nil_append, List.count_nil, ← List.head?_eq_getElem?, head?_splitOn]; rfl
  | append_singleton before c inductionHypothesis =>
    rw [List.append_assoc, List.singleton_append, lineAround, List.rtakeWhile_concat,
      List.count_append]
    by_cases isBreak : c = '\n'
    · subst isBreak
      rw [List.splitOn_append_cons_self, List.count_singleton_self, ← length_splitOn,
        List.getElem?_append_right (Nat.le_refl _), Nat.sub_self, ← List.head?_eq_getElem?,
        head?_splitOn]
      rfl
    · rw [List.count_singleton, if_neg (by simp [isBreak]), Nat.add_zero, inductionHypothesis,
        lineAround, List.takeWhile_cons_of_pos (by simp [isBreak]), if_pos (by simp [isBreak]),
        List.append_assoc]
      rfl

end Offside
