import ScalarExpr.Diagnostic
import ScalarExpr.Proofs.Number.Digits

/-!
# What a report shows

A report with a source has the message and its index, an excerpt of the source, and a caret. The
excerpt is the part of the source around the offset, with dots where characters were cut off, and the
caret is in the column of the character at the offset, or right behind the excerpt at the end of the
source.

Line breaks of the source are shown as they are. So the excerpt is one line, and the caret below the
character at the offset, exactly if no line break is in the part that is shown.
-/

namespace ScalarExpr

/-- What stands for characters that are cut off, if there are any. -/
def Excerpt.ellipsis (cut : List Char) : List Char := if cut = [] then [] else ['.', '.', '.']

/-- An excerpt shows a source around a point: what is before the shown part and after it is cut off,
and the column is that of the point. -/
structure Excerpt.Shows (excerpt : Excerpt) (source : List Char) (point : Nat)
    (before shown after : List Char) : Prop where
  parts : source = before ++ (shown ++ after)
  /-- Up to fifteen characters are shown before the point. -/
  start : before.length = point - 15
  /-- Up to fifteen characters are shown from the point on. -/
  stop : (before ++ shown).length = min source.length (point + 15)
  line : excerpt.line = ellipsis before ++ (shown ++ ellipsis after)
  /-- In the column is the character at the point. -/
  marked : point < source.length → excerpt.line[excerpt.column]? = source[point]?
  /-- At the end of the source the column is right behind the excerpt. -/
  behind : point = source.length → excerpt.column = excerpt.line.length

namespace Excerpt

/-- Something is cut off exactly if there is a character to cut off. -/
theorem ellipsis_of_length {cut : List Char} {p : Prop} [Decidable p] (h : p ↔ 0 < cut.length) :
    (if p then dots else []) = ellipsis cut := by
  cases cut with
  | nil => rw [if_neg (by simp [h])]; rfl
  | cons c cut => rw [if_pos (h.mpr (Nat.succ_pos _))]; rfl

/-- What stands between two parts of a text is found behind the first. -/
theorem getElem?_between {front middle back : List Char} {index : Nat} (h : index < middle.length) :
    (front ++ (middle ++ back))[front.length + index]? = middle[index]? := by
  rw [List.getElem?_append_right (Nat.le_add_right _ _), Nat.add_sub_cancel_left,
    List.getElem?_append_left h]

/-- The excerpt around an offset shows the source around the nearest point that is in it. -/
theorem shows_around (offset : Nat) (source : List Char) :
    ∃ before shown after,
      (around offset source).Shows source (min offset source.length) before shown after := by
  generalize hpoint : min offset source.length = point
  have hle : point ≤ source.length := hpoint ▸ Nat.min_le_right _ _
  let start := point - 15
  let stop := min (point + 15) source.length
  let before := source.take start
  let shown := (source.take stop).drop start
  let after := source.drop stop
  have hbefore : before.length = start := by
    rw [List.length_take]
    omega
  have hshown : shown.length = stop - start := by
    rw [List.length_drop, List.length_take]
    omega
  have hafter : after.length = source.length - stop := List.length_drop
  have hparts : source = before ++ (shown ++ after) := by
    have htake : before = (source.take stop).take start := by
      rw [List.take_take, Nat.min_eq_left (by omega)]
    rw [← List.append_assoc, htake, List.take_append_drop, List.take_append_drop]
  have hline : (around offset source).line = ellipsis before ++ (shown ++ ellipsis after) := by
    rw [← ellipsis_of_length (show 0 < start ↔ 0 < before.length by rw [hbefore]),
      ← ellipsis_of_length (show stop < source.length ↔ 0 < after.length by omega)]
    simp only [around, hpoint]
    rfl
  have hcolumn : (around offset source).column = (ellipsis before).length + (point - start) := by
    rw [← ellipsis_of_length (show 0 < start ↔ 0 < before.length by rw [hbefore])]
    simp only [around, hpoint]
    rfl
  refine ⟨before, shown, after, hparts, hbefore, ?_, hline, fun hlt => ?_, fun hend => ?_⟩
  · rw [List.length_append, hbefore, hshown]
    omega
  · have hinside : point - start < shown.length := by omega
    have hpoint : point = before.length + (point - start) := by omega
    rw [hline, hcolumn, getElem?_between hinside]
    conv => rhs; rw [hparts, hpoint, getElem?_between hinside]
  · have hnone : after = [] := List.eq_nil_of_length_eq_zero (by omega)
    rw [hline, hcolumn, hnone, List.length_append, List.length_append, hshown]
    simp only [ellipsis, if_pos, List.length_nil]
    omega

end Excerpt

/-- The lines of a text, which its line breaks divide. -/
def linesOf (text : String) : List (List Char) := text.toList.splitOn '\n'

/-- There is one line more than there are line breaks. -/
theorem length_linesOf (text : String) : (linesOf text).length = text.toList.count '\n' + 1 := by
  unfold linesOf
  induction text.toList with
  | nil => rfl
  | cons c chars ih =>
    rw [List.splitOn, List.splitOnP_cons_eq_if_modifyHead, ← List.splitOn]
    by_cases hbreak : c = '\n' <;> simp [hbreak, ih]

section Lines

variable {message source : String} {offset point : Nat} {excerpt : Excerpt}
  {before shown after : List Char}

/-- The first line of a report has no line break but those of its message. -/
theorem count_headline (message : String) (offset : Nat) :
    (report message offset none).toList.count '\n' = message.toList.count '\n' := by
  have hindex : '\n' ∉ " at index ".toList := by decide
  have hdigits (index : Nat) : '\n' ∉ (toString index).toList := by
    intro hmem
    have htext : (toString index).toList = Nat.toDigits 10 index := by simp [toString, Nat.repr]
    exact absurd (Numeral.areDigits_toDigits index '\n' (htext ▸ hmem)) (by decide)
  simp only [report, String.toList_append, List.count_append, List.count_eq_zero.mpr (hdigits _),
    List.count_eq_zero.mpr hindex, Nat.add_zero]

/-- An excerpt has no line break but those of the shown part. -/
theorem Excerpt.Shows.count_line (h : excerpt.Shows source.toList point before shown after) :
    excerpt.line.count '\n' = shown.count '\n' := by
  have hdots (cut : List Char) : (ellipsis cut).count '\n' = 0 := by
    unfold ellipsis
    split <;> rfl
  rw [h.line, List.count_append, List.count_append, hdots, hdots, Nat.zero_add, Nat.add_zero]

/-- A report is its first line, the excerpt and the caret, with line breaks between them. -/
theorem toList_report (message : String) (offset : Nat) (source : String) :
    (report message offset (some source)).toList =
      (report message offset none).toList ++ '\n' ::
        ((Excerpt.around offset source.toList).line ++ '\n' ::
          (List.replicate (Excerpt.around offset source.toList).column ' ' ++ ['^'])) := by
  simp [report, Excerpt.render]

/-- A caret line has no line break. -/
theorem not_mem_caretLine (column : Nat) : '\n' ∉ List.replicate column ' ' ++ ['^'] := by
  simp

end Lines

/-- A report of a message without line breaks has three lines and one more for each line break in the
shown part of the source. Without any these are the message, the excerpt and the caret, in whose
column is the character at the offset. -/
theorem lines_report {message : String} (hmessage : '\n' ∉ message.toList) (offset : Nat)
    (source : String) :
    ∃ (excerpt : Excerpt) (before shown after : List Char),
      excerpt.Shows source.toList (min offset source.length) before shown after ∧
      (linesOf (report message offset (some source))).length = 3 + shown.count '\n' ∧
      ('\n' ∉ shown → linesOf (report message offset (some source)) =
        [(report message offset none).toList, excerpt.line,
          List.replicate excerpt.column ' ' ++ ['^']]) := by
  obtain ⟨before, shown, after, hshows⟩ := Excerpt.shows_around offset source.toList
  rw [String.length_toList] at hshows
  have hheadline : (report message offset none).toList.count '\n' = 0 := by
    rw [count_headline, List.count_eq_zero.mpr hmessage]
  refine ⟨_, before, shown, after, hshows, ?_, fun hshown => ?_⟩
  · rw [length_linesOf, toList_report, List.count_append, List.count_cons_self, List.count_append,
      List.count_cons_self, hheadline, hshows.count_line,
      List.count_eq_zero.mpr (not_mem_caretLine _)]
    omega
  · have hline : '\n' ∉ (Excerpt.around offset source.toList).line := by
      rw [← List.count_eq_zero, hshows.count_line, List.count_eq_zero.mpr hshown]
    have hcaret := List.splitOn_intercalate '\n'
      (List.forall_mem_singleton.mpr
        (not_mem_caretLine (Excerpt.around offset source.toList).column))
      (List.cons_ne_nil _ _)
    rw [List.intercalate_singleton] at hcaret
    rw [linesOf, toList_report,
      List.splitOn_append_cons_self_of_not_mem (List.count_eq_zero.mp hheadline),
      List.splitOn_append_cons_self_of_not_mem hline, hcaret]

/-- In a source of one line the caret is below the slash of a division. -/
theorem lines_report_of_one_line :
    let text := report "Division by zero" 2 (some "1 / 0")
    '\n' ∉ "Division by zero".toList ∧ (linesOf text).length = 3 ∧
      ∃ excerpt : Excerpt, excerpt.line[excerpt.column]? = some '/' ∧
        linesOf text = ["Division by zero at index 3".toList, excerpt.line,
          List.replicate excerpt.column ' ' ++ ['^']] := by
  intro text
  have hmessage : '\n' ∉ "Division by zero".toList := by decide
  obtain ⟨excerpt, before, shown, after, hshows, hlength, hlines⟩ :=
    lines_report hmessage 2 "1 / 0"
  have hshown : '\n' ∉ shown := by
    intro hmem
    have hsource : '\n' ∈ "1 / 0".toList := by simp [hshows.parts, hmem]
    exact absurd hsource (by decide)
  rw [List.count_eq_zero.mpr hshown] at hlength
  have hhead : (report "Division by zero" 2 none).toList = "Division by zero at index 3".toList := by
    decide +kernel
  rw [hhead] at hlines
  exact ⟨hmessage, hlength, excerpt, hshows.marked (by decide), hlines hshown⟩

/-- Where the source has a line break, the report of the same error has four lines, and the line
above the caret has no character in the caret's column. -/
theorem lines_report_of_line_break :
    let text := report "Division by zero" 2 (some "1 /\n0")
    '\n' ∉ "Division by zero".toList ∧ "1 /\n0".toList[2]? = some '/' ∧
      linesOf text = ["Division by zero at index 3".toList, "1 /".toList, "0".toList,
        "  ^".toList] ∧
      (linesOf text).length ≠ 3 ∧ "0".toList[2]? = none := by
  decide +kernel

end ScalarExpr
