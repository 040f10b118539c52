import ScalarExpr.Command.Outcome
import Mathlib.Tactic.IntervalCases

/-!
# The lines of a log

A log shows a text of any number of lines in one line, and it shows all of it: what a text is quoted
as has no hidden character, line breaks among them. So each entry of a log stays one line, whatever
is in the expression.
-/

namespace ScalarExpr

namespace Text

/-- None of the characters is hidden. -/
def AllShow (chars : List Char) : Prop := ∀ c ∈ chars, isHidden c = false

-- the characters of the list are looked at, and not all characters for whether they are in it
instance (chars : List Char) : Decidable (AllShow chars) := List.decidableBAll _ chars

theorem AllShow.append {first second : List Char} (hfirst : AllShow first) (hsecond : AllShow second) :
    AllShow (first ++ second) :=
  List.forall_mem_append.mpr ⟨hfirst, hsecond⟩

/-- No character of the text is hidden. -/
def Shows (text : String) : Prop := AllShow text.toList
  deriving Decidable

theorem Shows.append {first second : String} (hfirst : Shows first) (hsecond : Shows second) :
    Shows (first ++ second) := by
  rw [Shows, String.toList_append]
  exact AllShow.append hfirst hsecond

/-- A text that shows is no more than one line. -/
theorem Shows.ne_lineBreak {text : String} (h : Shows text) {c : Char} (hc : c ∈ text.toList) :
    c ≠ '\n' ∧ c ≠ '\r' := by
  constructor <;> rintro rfl <;> exact absurd (h _ hc) (by decide)

/-- Digits show, up to those of the hexadecimal system. -/
theorem allShow_toDigits {base : Nat} (hlow : 1 < base) (hhigh : base ≤ 16) (n : Nat) :
    AllShow (Nat.toDigits base n) := by
  have hdigit {d : Nat} (h : d < 16) : AllShow [d.digitChar] := by
    interval_cases d <;> decide
  induction n using Nat.strong_induction_on with
  | _ n ih =>
    rw [Nat.toDigits_eq_if hlow]
    split
    · exact hdigit (by omega)
    · exact (ih (n / base) (Nat.div_lt_self (by omega) hlow)).append
        (hdigit ((Nat.mod_lt n (by omega)).trans_le hhigh))

theorem shows_toString (n : Nat) : Shows (toString n) := by
  rw [Shows, Nat.toString_eq_ofList_toDigits, String.toList_ofList]
  exact allShow_toDigits (by decide) (by decide) n

/-- What stands for a character shows: a letter or a number for one that does not, else itself. -/
theorem allShow_escaped (c : Char) : AllShow (escaped c) := by
  unfold escaped
  split_ifs with hnull htab hfeed hreturn hmark hhidden
  · decide
  · decide
  · decide
  · decide
  · obtain rfl | rfl := hmark <;> decide
  · have hdigits := allShow_toDigits (by decide) (by decide : 16 ≤ 16) c.toNat
    exact ((by decide : AllShow ['\\', 'u', '\x7b']).append hdigits).append (by decide)
  · simpa [AllShow] using hhidden

theorem shows_quoted (text : String) : Shows (quoted text) := by
  have hbody : AllShow (text.toList.flatMap escaped) := by
    intro shown hshown
    obtain ⟨c, -, hc⟩ := List.mem_flatMap.mp hshown
    exact allShow_escaped c shown hc
  rw [Shows, quoted, String.toList_ofList]
  exact (by decide : AllShow ['"']).append (hbody.append (by decide))

/-- A text of two lines is quoted in one. -/
example : quoted "1 /\n'0'" = "\"1 /\\n'0'\"" := by decide

end Text

open Text

/-- An evaluation is logged by kinds and numbers, not by the text of a value or of an error. -/
theorem Request.shows_answerWith (request : Request) (expression : String) (vars : Variables) :
    ∀ line ∈ (request.answerWith expression vars).2, Shows line := by
  have hstage : ∀ stage : Stage, Shows ("evaluation failed with " ++ stage.describe) := by
    rintro (_ | _ | _ | _) <;> decide
  have hkind : ∀ kind : ValueKind, Shows ("evaluated to " ++ kind.name) := by
    rintro (_ | _ | _ | _ | _) <;> decide
  unfold answerWith
  split
  · next diagnostic _ =>
    simpa using ((hstage diagnostic.stage).append (by decide)).append (shows_toString _)
  · next value _ => simpa using hkind value.kind

/-- Whatever is asked and answered, each entry of the log shows. -/
theorem Request.shows_run (request : Request) : ∀ line ∈ request.run.2, Shows line := by
  have hfirst (expression : String) : Shows ("expression: " ++ quoted expression) :=
    .append (by decide) (shows_quoted expression)
  have hbound (vars : Variables) : Shows (toString vars.size ++ " variable(s) bound") :=
    (shows_toString _).append (by decide)
  dsimp only [run]
  split_ifs with hblank hsyntax
  · simp
  · split
    · simpa using hfirst _
    · simpa using ⟨hfirst _, (by decide : Shows "syntax valid")⟩
  · split
    · simpa using hfirst _
    · simpa using ⟨hfirst _, hbound _, request.shows_answerWith _ _⟩

/-- So does each entry of the log of a demonstration. -/
theorem shows_demo : ∀ line ∈ demoExpressions.map fun expression =>
    "demo expression: " ++ quoted expression, Shows line := by
  simp only [List.forall_mem_map]
  exact fun expression _ => .append (by decide) (shows_quoted expression)

namespace CommandLine

/-- A line of a log. -/
structure IsLogLine (line : String) : Prop where
  opens : "[DEBUG ".toList <+: line.toList
  whole : ∀ c ∈ line.toList, c ≠ '\n' ∧ c ≠ '\r'

/-- A text of log lines, each of which has its end. -/
def IsLog (text : String) : Prop :=
  ∃ lines : List String, (∀ line ∈ lines, IsLogLine line) ∧
    text = String.join (lines.map (· ++ "\n"))

/-- Entries that show are the lines of a log. -/
theorem isLog_logText (verbose : Bool) (target : String) {lines : List String}
    (htarget : Shows target) (hlines : ∀ line ∈ lines, Shows line) :
    IsLog (logText verbose target lines) := by
  cases verbose with
  | false => exact ⟨[], by simp, rfl⟩
  | true =>
    refine ⟨lines.map ("[DEBUG " ++ target ++ "] " ++ ·), ?_, ?_⟩
    · intro logged hlogged
      obtain ⟨line, hline, rfl⟩ := List.mem_map.mp hlogged
      constructor
      · simp only [String.toList_append, List.append_assoc]
        exact List.prefix_append _ _
      · have hopening : Shows ("[DEBUG " ++ target ++ "] ") :=
          ((by decide : Shows "[DEBUG ").append htarget).append (by decide)
        exact fun c hc => (hopening.append (hlines line hline)).ne_lineBreak hc
    · rw [List.map_map]
      rfl

end CommandLine

end ScalarExpr
