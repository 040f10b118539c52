/-!
# Slices of a text

A part of a text may be given by the numbers of bytes in front of its two ends. It is there only if
each of these is the number of bytes of whole characters and they are in order: a slice never begins
or ends within a character.
-/

namespace ScalarExpr.Text

variable {text part : String} {start stop : Nat}

/-- The part of a text between two positions in bytes, if both are between characters and they are in
order. -/
def slice? (text : String) (start stop : Nat) : Option String := do
  let first ← text.pos? ⟨start⟩
  let last ← text.pos? ⟨stop⟩
  let slice ← text.slice? first last
  return slice.copy

/-- There is a position exactly where it has so many bytes in front of it. -/
theorem pos?_eq_some_iff {position : text.Pos} :
    text.pos? ⟨start⟩ = some position ↔ position.offset = ⟨start⟩ := by
  constructor
  · intro h
    obtain ⟨there, hthere, rfl⟩ := Option.map_eq_some_iff.mp h
    rw [String.Slice.pos?] at hthere
    split at hthere
    · cases hthere
      rw [String.Pos.offset_ofToSlice, String.Slice.offset_pos]
    · cases hthere
  · intro h
    have hvalid : String.Pos.Raw.isValidForSlice text.toSlice ⟨start⟩ = true := by
      rw [String.Pos.Raw.isValidForSlice_eq_true_iff, String.Pos.Raw.isValidForSlice_toSlice_iff,
        ← h]
      exact position.isValid
    refine Option.map_eq_some_iff.mpr ⟨_, dif_pos hvalid, String.Pos.ext ?_⟩
    rw [String.Pos.offset_ofToSlice, String.Slice.offset_pos, h]

/-- A slice stands between two parts of the text, with as many bytes in front of its ends as are asked
for. -/
theorem slice?_eq_some_iff :
    slice? text start stop = some part ↔
      ∃ before after, text = before ++ part ++ after ∧ before.utf8ByteSize = start ∧
        (before ++ part).utf8ByteSize = stop := by
  constructor
  · intro h
    simp only [slice?, Option.bind_eq_bind, Option.bind_eq_some_iff] at h
    obtain ⟨first, hfirst, last, hlast, slice, hslice, hpart⟩ := h
    rw [pos?_eq_some_iff] at hfirst hlast
    have hcopy : ∃ hle, (text.slice first last hle).copy = part := by
      rw [String.slice?] at hslice
      split at hslice
      · next hle =>
        cases hslice
        exact ⟨hle, Option.some.inj hpart⟩
      · cases hslice
    obtain ⟨before, after, hbefore, hafter⟩ := String.copy_slice_eq_iff_splits.mp hcopy
    refine ⟨before, after, hafter.eq_append, ?_, ?_⟩
    · rw [← String.byteIdx_rawEndPos, ← hbefore.offset_eq_rawEndPos, hfirst]
    · rw [← String.byteIdx_rawEndPos, ← hafter.offset_eq_rawEndPos, hlast]
  · rintro ⟨before, after, htext, rfl, rfl⟩
    have hfirst := String.Pos.splits_ofEqAppend (htext.trans String.append_assoc)
    have hlast := String.Pos.splits_ofEqAppend htext
    obtain ⟨hle, hcopy⟩ := String.copy_slice_eq_iff_splits.mpr ⟨before, after, hfirst, hlast⟩
    simp only [slice?, Option.bind_eq_bind, Option.bind_eq_some_iff]
    refine ⟨_, pos?_eq_some_iff.mpr hfirst.offset_eq_rawEndPos, _,
      pos?_eq_some_iff.mpr hlast.offset_eq_rawEndPos, _, dif_pos hle, congrArg some hcopy⟩

end ScalarExpr.Text
