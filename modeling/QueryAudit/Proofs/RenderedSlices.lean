import QueryAudit.Diagnostic.Render
import QueryAudit.Proofs.TextLines

/-! Rendering takes no slice that does not exist. Here an excerpt fails at the first slice whose
bounds are out of order, inside a character or past the end of the text, also where the ends of its
line are looked for. Rendering with such excerpts never fails, whatever the labels point at, and
shows what rendering shows. -/
namespace QueryAudit

open Text (Boundary slice?)

/-! ## Lines -/

namespace Text

/-- The line that holds an offset, found in the text before the offset and in the text after it, and
counted in the text before the line. -/
def lineAt? (text : String) (offset : Nat) : Option Line := do
  let before ← slice? text 0 offset
  let after ← slice? text offset text.utf8ByteSize
  let start := offset - byteSize (lastLine before.toList)
  let earlier ← slice? text 0 start
  return ⟨earlier.toList.count '\n' + 1, start, offset + byteSize (firstLine after.toList)⟩

theorem lineAt?_eq {text : String} {offset : Nat} (boundary : Boundary text offset) :
    lineAt? text offset = some (lineAt text.toList offset) := by
  obtain ⟨before, after, whole, rfl⟩ := boundary_iff.mp boundary
  have start : byteSize before - byteSize (lastLine before) = byteSize (earlierLines before) := by
    have sizes := byteSize_earlierLines before
    omega
  have earlier : slice? text 0 (byteSize (earlierLines before)) =
      some (.ofList (earlierLines before)) := by
    apply slice?_before
    rw [whole, ← List.append_assoc, earlierLines_append_lastLine]
  simp only [lineAt?, slice?_before whole, slice?_after whole, String.toList_ofList, start, earlier,
    Option.bind_eq_bind, Option.bind_some, whole, lineAt_cut, byteSize_append]
  rfl

end Text

/-! ## Excerpts -/

/-- An extent whose offsets are in order and are boundaries of a text. -/
structure Extent.Fits (text : String) (extent : Extent) : Prop where
  lead : extent.line.start ≤ extent.start
  marked : extent.start ≤ extent.markedStop
  trail : extent.markedStop ≤ extent.line.stop
  inside : extent.line.stop ≤ text.utf8ByteSize
  boundaries : ∀ offset ∈ [extent.line.start, extent.start, extent.markedStop, extent.line.stop],
    Boundary text offset

/-- The extent of any range fits the text, wherever the range lies. -/
theorem Extent.ofRange_fits (text : String) (range : TextRange) :
    (Extent.ofRange text range).Fits text := by
  have start : Boundary text (Text.floor range.start text.toList) :=
    (Text.floor_isGreatest text range.start).1.1
  have stop : Boundary text (Text.floor range.stop text.toList) :=
    (Text.floor_isGreatest text range.stop).1.1
  obtain ⟨lead, trail, inside, lineStart, lineStop⟩ := Text.lineAt_bounds start
  have markedStop : Boundary text (Extent.ofRange text range).markedStop :=
    (stop.max start).min lineStop
  refine ⟨lead, Nat.le_min.mpr ⟨Nat.le_max_right _ _, trail⟩, Nat.min_le_right _ _, inside, ?_⟩
  simp only [List.forall_mem_cons, List.not_mem_nil, false_imp_iff, implies_true, and_true]
  exact ⟨lineStart, start, markedStop, lineStop⟩

namespace Excerpt

theorem slice?_eq_cut {text : String} {start stop : Nat} (ordered : start ≤ stop)
    (first : Boundary text start) (second : Boundary text stop) :
    slice? text start stop = some (cut text start stop) := by
  obtain ⟨own, sliced⟩ :=
    Option.isSome_iff_exists.mp (Text.slice?_isSome_iff.mpr ⟨ordered, first, second⟩)
  rw [cut, sliced]
  rfl

/-- The excerpt of a range, as far as its slices exist. -/
def ofRange? (text : String) (range : TextRange) : Option Excerpt := do
  let start := Text.floor range.start text.toList
  let stop := max (Text.floor range.stop text.toList) start
  let line ← Text.lineAt? text start
  let whole ← slice? text line.start line.stop
  let lead ← slice? text line.start start
  let marked ← slice? text start (min stop line.stop)
  return ⟨line.number, whole, lead, marked⟩

theorem ofRange?_eq (text : String) (range : TextRange) :
    ofRange? text range = some (ofRange text range) := by
  have fits := Extent.ofRange_fits text range
  obtain ⟨lineStart, start, markedStop, lineStop⟩ :
      Boundary text (Extent.ofRange text range).line.start ∧
        Boundary text (Extent.ofRange text range).start ∧
        Boundary text (Extent.ofRange text range).markedStop ∧
        Boundary text (Extent.ofRange text range).line.stop := by
    simpa using fits.boundaries
  have line := Text.lineAt?_eq start
  have whole := slice?_eq_cut (fits.lead.trans (fits.marked.trans fits.trail)) lineStart lineStop
  have lead := slice?_eq_cut fits.lead lineStart start
  have marked := slice?_eq_cut fits.marked start markedStop
  simp only [Extent.ofRange, Extent.markedStop] at line whole lead marked
  simp only [ofRange?, line, whole, lead, marked, Option.bind_eq_bind, Option.bind_some]
  rfl

end Excerpt

/-! ## Diagnostics -/

namespace Diagnostic

variable {σ : Type} [SourceProvider σ]

/-- A diagnostic as text, as far as the slices for it exist. -/
def render? (sources : σ) (diagnostic : Diagnostic) : Option String :=
  renderWith Excerpt.ofRange? sources diagnostic

theorem renderLabelsWith_ofRange? (sources : σ) (current : Option FileId) (labels : List Label) :
    renderLabelsWith Excerpt.ofRange? sources current labels =
      some (renderLabels sources current labels) := by
  induction labels generalizing current with
  | nil => rfl
  | cons label rest ih =>
    rw [renderLabelsWith, renderLabels_cons, ih]
    cases SourceProvider.text? sources label.span.file with
    | none => rfl
    | some text =>
      simp only [Excerpt.ofRange?_eq]
      rfl

/-- Whatever a diagnostic and its labels point at, in whatever files, every slice that its rendering
takes exists. A slice exists exactly between two boundaries in order; offsets are moved down to the
greatest boundary that is neither above them nor past the end; and the start and the end of the
line and of the marked part are boundaries within the text and in order. -/
theorem render_takes_existing_slices (sources : σ) (diagnostic : Diagnostic) :
    render? sources diagnostic = some (render sources diagnostic) ∧
      (∀ text start stop, (slice? text start stop).isSome ↔
        start ≤ stop ∧ Boundary text start ∧ Boundary text stop) ∧
      (∀ text offset, IsGreatest
        {boundary | Boundary text boundary ∧ boundary ≤ min offset text.utf8ByteSize}
        (Text.floor offset text.toList)) ∧
      ∀ text range, (Extent.ofRange text range).Fits text := by
  refine ⟨?_, fun _ _ _ => Text.slice?_isSome_iff, Text.floor_isGreatest, Extent.ofRange_fits⟩
  rw [render?, renderWith, renderLabelsWith_ofRange?]
  rfl

end Diagnostic
end QueryAudit
