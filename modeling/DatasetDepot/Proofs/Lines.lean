import DatasetDepot.Text.Utf8
import Mathlib.Data.List.Basic

/-!
Lines of a file and their numbers.

A line ends with its line feed, so that the number of a line is that of the line feeds in front of
it, counted from one.
-/

namespace DatasetDepot

/-- The number of the line that begins, or goes on, behind some bytes. -/
def lineBehind (front : Bytes) : Nat := front.count 0x0A + 1

theorem lineBehind_append (front more : Bytes) :
    lineBehind (front ++ more) = lineBehind front + more.count 0x0A := by
  unfold lineBehind
  rw [List.count_append]
  omega

/-- Some bytes are a line of a file, without its line feed, and these are in front of it. -/
structure IsLine (contents front line : Bytes) : Prop where
  parted : ∃ behind, contents = front ++ line ++ behind ∧ (behind = [] ∨ behind.head? = some 0x0A)
  starts : front = [] ∨ front.getLast? = some 0x0A
  whole : 0x0A ∉ line

/-- The first line of a file, which may be all of it. -/
inductive FirstLine : Bytes → Bytes → List Bytes → Prop where
  | only {line : Bytes} (whole : 0x0A ∉ line) : FirstLine line line []
  | more {line rest : Bytes} (whole : 0x0A ∉ line) :
      FirstLine (line ++ 0x0A :: rest) line (rest.splitOnP (· = 0x0A))

theorem exists_firstLine (contents : Bytes) :
    ∃ line others, contents.splitOnP (· = 0x0A) = line :: others ∧
      FirstLine contents line others := by
  have unbroken : ∀ line : Bytes, 0x0A ∉ line → ∀ byte ∈ line, decide (byte = 0x0A) = false :=
    fun line whole byte member => decide_eq_false (ne_of_mem_of_not_mem member whole)
  by_cases broken : 0x0A ∈ contents
  · obtain ⟨line, rest, rfl, whole⟩ := List.eq_append_cons_of_mem broken
    exact ⟨line, _, List.splitOnP_append_cons_of_forall_mem (unbroken line whole) _ rfl rest,
      .more whole⟩
  · exact ⟨contents, [], List.splitOnP_eq_singleton (unbroken contents broken), .only broken⟩

/-- A line has as many line feeds in front of it as there are lines before it. -/
theorem exists_isLine {contents : Bytes} {before after : List Bytes} {line : Bytes}
    (split : contents.splitOnP (· = 0x0A) = before ++ line :: after) :
    ∃ front, IsLine contents front line ∧ lineBehind front = before.length + 1 := by
  induction before generalizing contents with
  | nil =>
      obtain ⟨first, others, parts, isFirst⟩ := exists_firstLine contents
      cases parts.symm.trans split
      refine ⟨[], ?_, rfl⟩
      cases isFirst with
      | only whole => exact ⟨⟨[], (List.append_nil _).symm, .inl rfl⟩, .inl rfl, whole⟩
      | more whole => exact ⟨⟨_, rfl, .inr rfl⟩, .inl rfl, whole⟩
  | cons first before inductionHypothesis =>
      obtain ⟨first', others, parts, isFirst⟩ := exists_firstLine contents
      obtain ⟨rfl, rest⟩ := List.cons.inj (parts.symm.trans split)
      cases isFirst with
      | only whole => cases before <;> cases rest
      | @more _ contents whole =>
          obtain ⟨front, isLine, number⟩ := inductionHypothesis rest
          obtain ⟨behind, rfl, ends⟩ := isLine.parted
          refine ⟨first' ++ 0x0A :: front, ⟨⟨behind, by simp, ends⟩, .inr ?_, isLine.whole⟩, ?_⟩
          · rcases isLine.starts with rfl | last
            · exact List.getLast?_concat
            · rw [List.getLast?_append, List.getLast?_cons, last]
              rfl
          · have none : first'.count 0x0A = 0 := List.count_eq_zero_of_not_mem whole
            unfold lineBehind at number ⊢
            rw [List.count_append, List.count_cons_self, none, List.length_cons]
            omega

end DatasetDepot
