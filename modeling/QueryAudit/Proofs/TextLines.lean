import Mathlib.Data.List.DropRight
import Mathlib.Data.List.Infix
import Mathlib.Order.Bounds.Basic
import QueryAudit.Proofs.TextSlices

/-! Offsets between characters, and lines. A slice exists exactly between two offsets in order that
both fall between characters. Any offset can be moved down to one that does, and the ends of the
line around such an offset do too, because lines are cut at a character. -/
namespace QueryAudit.Text

variable {before after chars : List Char} {text : String} {start stop offset : Nat}

/-! ## Boundaries -/

/-- An offset that falls between two characters of a text, or on one of its ends. -/
abbrev Boundary (text : String) (offset : Nat) : Prop :=
  String.Pos.Raw.IsValid text ⟨offset⟩

@[simp] theorem byteSize_append (before after : List Char) :
    byteSize (before ++ after) = byteSize before + byteSize after := by
  induction before with
  | nil => simp
  | cons c rest ih => rw [List.cons_append, byteSize_cons, byteSize_cons, ih, Nat.add_assoc]

theorem boundary_iff :
    Boundary text offset ↔ ∃ before after, text.toList = before ++ after ∧ byteSize before = offset := by
  rw [Boundary, String.Pos.Raw.isValid_iff_exists_append]
  constructor
  · rintro ⟨before, after, rfl, same⟩
    refine ⟨before.toList, after.toList, String.toList_append, ?_⟩
    rw [byteSize_toList]
    exact (congrArg String.Pos.Raw.byteIdx same).symm
  · rintro ⟨before, after, whole, rfl⟩
    refine ⟨.ofList before, .ofList after, ?_, ?_⟩
    · rw [← String.ofList_append, ← whole, String.ofList_toList]
    · apply String.Pos.Raw.ext
      rw [String.byteIdx_rawEndPos, ← byteSize_toList, String.toList_ofList]

theorem boundary_of_split (whole : text.toList = before ++ after) :
    Boundary text (byteSize before) :=
  boundary_iff.mpr ⟨before, after, whole, rfl⟩

theorem Boundary.le_size (boundary : Boundary text offset) : offset ≤ text.utf8ByteSize :=
  boundary.le_rawEndPos

theorem Boundary.max (first : Boundary text start) (second : Boundary text stop) :
    Boundary text (max start stop) := by
  rcases Nat.le_total start stop with before | after
  · rwa [Nat.max_eq_right before]
  · rwa [Nat.max_eq_left after]

theorem Boundary.min (first : Boundary text start) (second : Boundary text stop) :
    Boundary text (min start stop) := by
  rcases Nat.le_total start stop with before | after
  · rwa [Nat.min_eq_left before]
  · rwa [Nat.min_eq_right after]

/-- Of two cuts of a text, the one at the lower offset leaves less before it. -/
theorem prefix_of_byteSize_le {other rest : List Char} (same : before ++ after = other ++ rest)
    (ordered : byteSize before ≤ byteSize other) : before <+: other := by
  have first : before <+: other ++ rest := ⟨after, same⟩
  rcases List.prefix_or_prefix_of_prefix first (List.prefix_append other rest) with shorter | longer
  · exact shorter
  · obtain ⟨more, rfl⟩ := longer
    cases more with
    | nil => simp
    | cons c more =>
      have positive := c.utf8Size_pos
      rw [byteSize_append, byteSize_cons] at ordered
      omega

/-- Of a text in three pieces, the middle one stands between the offsets of its ends. -/
theorem slice?_middle {own : List Char} (whole : text.toList = before ++ own ++ after) :
    slice? text (byteSize before) (byteSize (before ++ own)) = some (.ofList own) := by
  refine slice?_eq_some_iff.mpr ⟨.ofList before, .ofList after, ?_, ?_, ?_⟩
  · rw [← String.ofList_append, ← String.ofList_append, ← whole, String.ofList_toList]
  · rw [← byteSize_toList, String.toList_ofList]
  · rw [← byteSize_toList, String.toList_ofList, byteSize_append]

theorem slice?_before (whole : text.toList = before ++ after) :
    slice? text 0 (byteSize before) = some (.ofList before) := by
  have middle : text.toList = [] ++ before ++ after := whole
  exact slice?_middle middle

theorem slice?_after (whole : text.toList = before ++ after) :
    slice? text (byteSize before) text.utf8ByteSize = some (.ofList after) := by
  have middle : text.toList = before ++ after ++ [] := by rw [whole, List.append_nil]
  rw [← byteSize_toList, whole]
  exact slice?_middle middle

/-- A slice exists exactly between two boundaries that are in order. -/
theorem slice?_isSome_iff :
    (slice? text start stop).isSome ↔ start ≤ stop ∧ Boundary text start ∧ Boundary text stop := by
  constructor
  · intro taken
    obtain ⟨own, sliced⟩ := Option.isSome_iff_exists.mp taken
    obtain ⟨before, after, rfl, rfl, rfl⟩ := slice?_eq_some_iff.mp sliced
    refine ⟨Nat.le_add_right _ _, boundary_iff.mpr ⟨before.toList, (own ++ after).toList, ?_, ?_⟩,
      boundary_iff.mpr ⟨(before ++ own).toList, after.toList, ?_, ?_⟩⟩
    · rw [String.append_assoc, String.toList_append]
    · exact byteSize_toList before
    · rw [String.toList_append]
    · rw [byteSize_toList, String.utf8ByteSize_append]
  · rintro ⟨ordered, first, second⟩
    obtain ⟨before, rest, whole, rfl⟩ := boundary_iff.mp first
    obtain ⟨outer, after, wholeAgain, rfl⟩ := boundary_iff.mp second
    obtain ⟨own, rfl⟩ := prefix_of_byteSize_le (whole.symm.trans wholeAgain) ordered
    rw [slice?_middle wholeAgain]
    rfl

/-! ## Moving down to a boundary -/

theorem floor_le (offset : Nat) (chars : List Char) : floor offset chars ≤ offset := by
  fun_induction floor offset chars with
  | case1 => exact Nat.zero_le _
  | case2 offset c rest fits ih => omega
  | case3 => exact Nat.zero_le _

theorem exists_floor (offset : Nat) (chars : List Char) :
    ∃ before after, chars = before ++ after ∧ byteSize before = floor offset chars := by
  fun_induction floor offset chars with
  | case1 => exact ⟨[], [], rfl, rfl⟩
  | case2 offset c rest fits ih =>
    obtain ⟨before, after, whole, size⟩ := ih
    exact ⟨c :: before, after, by rw [whole, List.cons_append], by rw [byteSize_cons, size]⟩
  | case3 offset c rest exceeds => exact ⟨[], c :: rest, rfl, rfl⟩

theorem le_floor (within : byteSize before ≤ offset) :
    byteSize before ≤ floor offset (before ++ after) := by
  induction before generalizing offset with
  | nil => exact Nat.zero_le _
  | cons c rest ih =>
    rw [byteSize_cons] at within ⊢
    rw [List.cons_append, floor, if_pos (by omega)]
    have below := @ih (offset - c.utf8Size) (by omega)
    omega

/-- An offset is moved down to the greatest boundary that is neither above it nor past the end. -/
theorem floor_isGreatest (text : String) (offset : Nat) :
    IsGreatest {boundary | Boundary text boundary ∧ boundary ≤ min offset text.utf8ByteSize}
      (floor offset text.toList) := by
  constructor
  · obtain ⟨before, after, whole, size⟩ := exists_floor offset text.toList
    have boundary : Boundary text (floor offset text.toList) := size ▸ boundary_of_split whole
    exact ⟨boundary, Nat.le_min.mpr ⟨floor_le offset _, boundary.le_size⟩⟩
  · rintro other ⟨boundary, within⟩
    obtain ⟨before, after, whole, rfl⟩ := boundary_iff.mp boundary
    rw [whole]
    exact le_floor (Nat.le_trans within (Nat.min_le_left _ _))

/-! ## Lines -/

/-- What stands before the last line of some text, with the line break that ends it. -/
def earlierLines (chars : List Char) : List Char :=
  chars.rdropWhile (· != '\n')

/-- What stands after the last line break. -/
def lastLine (chars : List Char) : List Char :=
  chars.rtakeWhile (· != '\n')

/-- What stands before the first line break. -/
def firstLine (chars : List Char) : List Char :=
  chars.takeWhile (· != '\n')

@[simp] theorem earlierLines_append_lastLine (chars : List Char) :
    earlierLines chars ++ lastLine chars = chars :=
  List.rdropWhile_append_rtakeWhile

theorem firstLine_append_dropWhile (chars : List Char) :
    firstLine chars ++ chars.dropWhile (· != '\n') = chars :=
  List.takeWhile_append_dropWhile

theorem break_not_mem_lastLine (chars : List Char) : '\n' ∉ lastLine chars := by
  intro listed
  simpa using List.mem_rtakeWhile_imp listed

theorem byteSize_reverse (chars : List Char) : byteSize chars.reverse = byteSize chars := by
  induction chars with
  | nil => rfl
  | cons c rest ih =>
    rw [List.reverse_cons, byteSize_append, ih, byteSize_cons, byteSize_cons, byteSize_nil]
    omega

theorem byteSize_earlierLines (chars : List Char) :
    byteSize (earlierLines chars) + byteSize (lastLine chars) = byteSize chars := by
  rw [← byteSize_append, earlierLines_append_lastLine]

/-- The last line adds no line break to those before it. -/
theorem count_earlierLines (chars : List Char) :
    (earlierLines chars).count '\n' = chars.count '\n' := by
  conv_rhs => rw [← earlierLines_append_lastLine chars]
  rw [List.count_append, List.count_eq_zero_of_not_mem (break_not_mem_lastLine chars), Nat.add_zero]

/-- The line around a cut starts with the last line before the cut, ends with the first one after
it, and is counted by the line breaks before its start. -/
theorem lineAt_cut (before after : List Char) :
    lineAt (before ++ after) (byteSize before) =
      ⟨(earlierLines before).count '\n' + 1, byteSize (earlierLines before),
        byteSize (before ++ firstLine after)⟩ := by
  have cut : splitAt? (byteSize before) (before ++ after) = some (before, after) :=
    splitAt?_eq_some_iff.mpr ⟨rfl, rfl⟩
  have start : byteSize before - byteSize (before.reverse.takeWhile (· != '\n')) =
      byteSize (earlierLines before) := by
    have sizes := byteSize_earlierLines before
    rw [lastLine, List.rtakeWhile, byteSize_reverse] at sizes
    omega
  simp only [lineAt, cut, Option.getD_some, count_earlierLines, start, byteSize_append, firstLine]

/-- The line around a boundary has its ends on boundaries, one before it and one after it. -/
theorem lineAt_bounds (boundary : Boundary text offset) :
    let line := lineAt text.toList offset
    line.start ≤ offset ∧ offset ≤ line.stop ∧ line.stop ≤ text.utf8ByteSize ∧
      Boundary text line.start ∧ Boundary text line.stop := by
  obtain ⟨before, after, whole, rfl⟩ := boundary_iff.mp boundary
  have startBoundary : Boundary text (byteSize (earlierLines before)) := by
    apply boundary_of_split
    rw [whole, ← List.append_assoc, earlierLines_append_lastLine]
  have stopBoundary : Boundary text (byteSize (before ++ firstLine after)) := by
    apply boundary_of_split
    rw [List.append_assoc, firstLine_append_dropWhile, whole]
  have sizes := byteSize_earlierLines before
  simp only [whole, lineAt_cut]
  refine ⟨by omega, ?_, stopBoundary.le_size, startBoundary, stopBoundary⟩
  rw [byteSize_append]
  exact Nat.le_add_right _ _

end QueryAudit.Text
