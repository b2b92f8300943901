import Mathlib.Algebra.Group.Nat.Defs
import Mathlib.Data.List.DropRight
import Mathlib.Data.List.TakeWhile
import Mathlib.Order.Bounds.Defs
import QueryAudit.Proofs.RenderedSlices

/-! What the excerpt of a label points at. A text is cut at a range into the lines before the one on
which the range starts, that line up to the range, the range itself and what comes after it. The
number, the column and the line that are shown, and where the marks below it begin and how many
there are, can be read off these pieces. -/
namespace QueryAudit

open Text (Boundary byteSize earlierLines lastLine firstLine)

/-! ## Lines -/

namespace Text

variable {text : String} {offset boundary : Nat}

/-- The greatest boundary that is not above an offset. -/
def Clamps (text : String) (offset boundary : Nat) : Prop :=
  IsGreatest {other | Boundary text other ∧ other ≤ offset} boundary

theorem clamps_floor (text : String) (offset : Nat) :
    Clamps text offset (floor offset text.toList) := by
  obtain ⟨⟨isBoundary, below⟩, greatest⟩ := floor_isGreatest text offset
  refine ⟨⟨isBoundary, Nat.le_trans below (Nat.min_le_left _ _)⟩, ?_⟩
  rintro other ⟨otherBoundary, otherBelow⟩
  exact greatest ⟨otherBoundary, Nat.le_min.mpr ⟨otherBelow, otherBoundary.le_size⟩⟩

/-- A boundary is not moved. -/
theorem Clamps.eq_of_boundary (clamps : Clamps text offset boundary)
    (isBoundary : Boundary text offset) : boundary = offset :=
  Nat.le_antisymm clamps.1.2 (clamps.2 ⟨isBoundary, Nat.le_refl _⟩)

theorem break_not_mem_firstLine (chars : List Char) : '\n' ∉ firstLine chars := by
  intro listed
  simpa using List.mem_takeWhile_imp listed

/-- Lines before the last one end with a line break. -/
theorem earlierLines_cases (chars : List Char) :
    earlierLines chars = [] ∨ ∃ lines, earlierLines chars = lines ++ ['\n'] := by
  by_cases none : earlierLines chars = []
  · exact .inl none
  · have last : (earlierLines chars).getLast none = '\n' := by
      simpa [earlierLines] using List.rdropWhile_last_not (· != '\n') chars none
    refine .inr ⟨(earlierLines chars).dropLast, ?_⟩
    rw [← last, List.dropLast_append_getLast]

/-- What follows the first line starts with a line break. -/
theorem dropWhile_cases (chars : List Char) :
    chars.dropWhile (· != '\n') = [] ∨ ∃ lines, chars.dropWhile (· != '\n') = '\n' :: lines := by
  cases rest : chars.dropWhile (· != '\n') with
  | nil => exact .inl rfl
  | cons c lines =>
    have first : c = '\n' := by
      have head := List.head_dropWhile_not (· != '\n') (l := chars) (by rw [rest]; simp)
      simpa [rest] using head
    exact .inr ⟨lines, by rw [first]⟩

/-- What a range covers of the line on which it starts ends with the range or with the line. -/
theorem min_byteSize_firstLine (own after : List Char) :
    min (byteSize own) (byteSize (firstLine (own ++ after))) = byteSize (firstLine own) := by
  have sizes : byteSize (firstLine own) + byteSize (own.dropWhile (· != '\n')) = byteSize own := by
    rw [← byteSize_append, firstLine_append_dropWhile]
  rw [firstLine, firstLine, List.takeWhile_append]
  split
  · next all =>
    have whole : own.takeWhile (· != '\n') = own := (List.takeWhile_prefix _).eq_of_length all
    rw [byteSize_append, whole]
    omega
  · rw [firstLine] at sizes
    omega

theorem toList_pushn (c : Char) (count : Nat) :
    ("".pushn c count).toList = List.replicate count c := by
  rw [String.pushn_eq_repeat_push]
  induction count with
  | zero => rfl
  | succ count ih => rw [Nat.repeat, String.toList_push, ih, List.replicate_succ']

end Text

/-! ## Snippets -/

/-- A text cut at a range. Its ends are moved down to boundaries, and the second one up to the
first. -/
structure Snippet (text : String) (range : TextRange) where
  /-- The lines before the one on which the range starts. -/
  earlier : String
  /-- That line up to the range. -/
  lead : String
  /-- The range itself. -/
  own : String
  /-- What comes after the range. -/
  after : String
  whole : text = earlier ++ lead ++ own ++ after
  starts : Text.Clamps text range.start (earlier ++ lead).utf8ByteSize
  stops : ∃ stop, Text.Clamps text range.stop stop ∧
    (earlier ++ lead ++ own).utf8ByteSize = max stop (earlier ++ lead).utf8ByteSize
  opens : earlier = "" ∨ ∃ lines, earlier = lines ++ "\n"
  unbroken : '\n' ∉ lead.toList

namespace Snippet

variable {text : String} {range : TextRange}

/-- Offset of the range. -/
def start (snippet : Snippet text range) : Nat :=
  (snippet.earlier ++ snippet.lead).utf8ByteSize

/-- The lines are counted by the line breaks before the range. -/
def lineNumber (snippet : Snippet text range) : Nat :=
  1 + (snippet.earlier ++ snippet.lead).toList.count '\n'

def column (snippet : Snippet text range) : Nat :=
  1 + snippet.lead.length

/-- The line on which the range starts. -/
def line (snippet : Snippet text range) : String :=
  snippet.lead ++ .ofList (firstLine (snippet.own ++ snippet.after).toList)

/-- What the range covers of that line. -/
def marked (snippet : Snippet text range) : String :=
  .ofList (firstLine snippet.own.toList)

def excerpt (snippet : Snippet text range) : Excerpt :=
  ⟨snippet.lineNumber, snippet.line, snippet.lead, snippet.marked⟩

/-- The line is a piece of the text between two line breaks. -/
theorem line_between (snippet : Snippet text range) :
    ∃ later, text = snippet.earlier ++ snippet.line ++ later ∧ '\n' ∉ snippet.line.toList ∧
      (later = "" ∨ ∃ lines, later = "\n" ++ lines) := by
  let rest := (snippet.own ++ snippet.after).toList
  refine ⟨.ofList (rest.dropWhile (· != '\n')), ?_, ?_, ?_⟩
  · have split : String.ofList (firstLine rest) ++ .ofList (rest.dropWhile (· != '\n')) =
        snippet.own ++ snippet.after := by
      rw [← String.ofList_append, Text.firstLine_append_dropWhile, String.ofList_toList]
    calc text = snippet.earlier ++ snippet.lead ++ snippet.own ++ snippet.after := snippet.whole
      _ = snippet.earlier ++ snippet.lead ++ (snippet.own ++ snippet.after) := String.append_assoc
      _ = snippet.earlier ++ snippet.line ++ .ofList (rest.dropWhile (· != '\n')) := by
        rw [← split]
        simp only [line, rest, String.append_assoc]
  · rw [line, String.toList_append, String.toList_ofList, List.mem_append, not_or]
    exact ⟨snippet.unbroken, Text.break_not_mem_firstLine rest⟩
  · rcases Text.dropWhile_cases rest with none | ⟨lines, some⟩
    · rw [none]
      exact .inl rfl
    · refine .inr ⟨.ofList lines, ?_⟩
      rw [some, ← List.singleton_append, String.ofList_append]

/-- A place that has a text is cut out as that text, when its offsets fit a range. -/
theorem own_of_slice? (snippet : Snippet text range) {loc : Loc} {own : String}
    (small : text.utf8ByteSize < 2 ^ 32) (placed : range = .ofLoc loc)
    (sliced : loc.slice? text = some own) : snippet.start = loc.start ∧ snippet.own = own := by
  have cut : Text.slice? text loc.start loc.stop = some own := by
    unfold Loc.slice? at sliced
    split at sliced
    · cases sliced
    · exact sliced
  obtain ⟨ordered, startBoundary, stopBoundary⟩ :=
    Text.slice?_isSome_iff.mp (Option.isSome_of_eq_some cut)
  have fits {offset : Nat} (boundary : Boundary text offset) :
      min offset TextRange.greatestOffset = offset := by
    have within := boundary.le_size
    have greatest : TextRange.greatestOffset = 2 ^ 32 - 1 := rfl
    omega
  subst placed
  have starts := snippet.starts
  obtain ⟨stop, stops, size⟩ := snippet.stops
  simp only [TextRange.ofLoc, fits startBoundary, fits stopBoundary] at starts stops
  have isStart := starts.eq_of_boundary startBoundary
  have isStop := stops.eq_of_boundary stopBoundary
  refine ⟨isStart, ?_⟩
  have again : Text.slice? text loc.start loc.stop = some snippet.own := by
    refine Text.slice?_eq_some_iff.mpr ⟨_, _, snippet.whole, isStart, ?_⟩
    rw [String.utf8ByteSize_append] at size
    omega
  exact Option.some.inj (again.symm.trans cut)

end Snippet

/-! ## Excerpts -/

section Cut

variable {text : String} {range : TextRange} {before own after : List Char}

/-- The pieces of a text that is cut at the ends of a range. -/
def Snippet.ofCut (whole : text.toList = before ++ own ++ after)
    (starts : Text.Clamps text range.start (byteSize before))
    (stops : ∃ stop, Text.Clamps text range.stop stop ∧
      byteSize (before ++ own) = max stop (byteSize before)) : Snippet text range :=
  have size (chars : List Char) : (String.ofList chars).utf8ByteSize = byteSize chars := by
    rw [← Text.byteSize_toList, String.toList_ofList]
  have beforeEq : String.ofList (earlierLines before) ++ .ofList (lastLine before) =
      .ofList before := by
    rw [← String.ofList_append, Text.earlierLines_append_lastLine]
  { earlier := .ofList (earlierLines before)
    lead := .ofList (lastLine before)
    own := .ofList own
    after := .ofList after
    whole := by
      rw [beforeEq, ← String.ofList_append, ← String.ofList_append, ← whole, String.ofList_toList]
    starts := by
      rw [beforeEq, size]
      exact starts
    stops := by
      rw [beforeEq, ← String.ofList_append, size, size]
      exact stops
    opens := by
      rcases Text.earlierLines_cases before with none | ⟨lines, some⟩
      · rw [none]
        exact .inl rfl
      · refine .inr ⟨.ofList lines, ?_⟩
        rw [some, String.ofList_append]
    unbroken := by
      rw [String.toList_ofList]
      exact Text.break_not_mem_lastLine before }

namespace Excerpt

theorem cut_middle (whole : text.toList = before ++ own ++ after) :
    cut text (byteSize before) (byteSize (before ++ own)) = .ofList own := by
  rw [cut, Text.slice?_middle whole]
  rfl

/-- The excerpt of a range, in the pieces that the text is cut into at the ends of the range. -/
theorem ofRange_cut (whole : text.toList = before ++ own ++ after)
    (starts : byteSize before = Text.floor range.start text.toList)
    (stops : byteSize (before ++ own) =
      max (Text.floor range.stop text.toList) (Text.floor range.start text.toList)) :
    ofRange text range =
      ⟨before.count '\n' + 1, .ofList (lastLine before ++ firstLine (own ++ after)),
        .ofList (lastLine before), .ofList (firstLine own)⟩ := by
  have line : Text.lineAt text.toList (byteSize before) =
      ⟨before.count '\n' + 1, byteSize (earlierLines before),
        byteSize (before ++ firstLine (own ++ after))⟩ := by
    rw [whole, List.append_assoc, Text.lineAt_cut, Text.count_earlierLines]
  have markedStop : min (byteSize (before ++ own)) (byteSize (before ++ firstLine (own ++ after))) =
      byteSize (before ++ firstLine own) := by
    have inLine := Text.min_byteSize_firstLine own after
    simp only [Text.byteSize_append]
    omega
  have extent : Extent.ofRange text range =
      ⟨byteSize before, byteSize (before ++ own), Text.lineAt text.toList (byteSize before)⟩ := by
    rw [Extent.ofRange, ← starts, stops, ← starts]
  have leadEq : cut text (byteSize (earlierLines before)) (byteSize before) =
      .ofList (lastLine before) := by
    have pieces : text.toList = earlierLines before ++ lastLine before ++ (own ++ after) := by
      rw [Text.earlierLines_append_lastLine, ← List.append_assoc, whole]
    simpa using cut_middle pieces
  have lineEq : cut text (byteSize (earlierLines before))
      (byteSize (before ++ firstLine (own ++ after))) =
        .ofList (lastLine before ++ firstLine (own ++ after)) := by
    have pieces : text.toList = earlierLines before ++
        (lastLine before ++ firstLine (own ++ after)) ++ (own ++ after).dropWhile (· != '\n') := by
      rw [← List.append_assoc, Text.earlierLines_append_lastLine, List.append_assoc,
        Text.firstLine_append_dropWhile, whole, List.append_assoc]
    have middle := cut_middle pieces
    rwa [← List.append_assoc, Text.earlierLines_append_lastLine] at middle
  have markedEq : cut text (byteSize before) (byteSize (before ++ firstLine own)) =
      .ofList (firstLine own) := by
    have pieces : text.toList =
        before ++ firstLine own ++ (own.dropWhile (· != '\n') ++ after) := by
      rw [List.append_assoc, ← List.append_assoc (firstLine own), Text.firstLine_append_dropWhile,
        ← List.append_assoc, whole]
    exact cut_middle pieces
  simp only [ofRange, extent, line, Extent.markedStop, markedStop, leadEq, lineEq, markedEq]

/-- The excerpt of any range shows the line and the marked part of the text cut at that range. -/
theorem exists_snippet (text : String) (range : TextRange) :
    ∃ snippet : Snippet text range, ofRange text range = snippet.excerpt := by
  obtain ⟨before, rest, whole, startSize⟩ := Text.exists_floor range.start text.toList
  have start := Text.clamps_floor text range.start
  have stop := Text.clamps_floor text range.stop
  obtain ⟨outer, after, wholeAgain, stopSize⟩ := Text.boundary_iff.mp (stop.1.1.max start.1.1)
  have ordered : byteSize before ≤ byteSize outer := by
    rw [startSize, stopSize]
    exact Nat.le_max_right _ _
  obtain ⟨own, rfl⟩ := Text.prefix_of_byteSize_le (whole.symm.trans wholeAgain) ordered
  have excerpt := ofRange_cut wholeAgain startSize stopSize
  rw [← startSize] at start stopSize
  refine ⟨.ofCut wholeAgain start ⟨_, stop, stopSize⟩, ?_⟩
  rw [excerpt]
  simp [Snippet.ofCut, Snippet.excerpt, Snippet.lineNumber, Snippet.line, Snippet.marked,
    ← String.ofList_append, Nat.add_comm]

end Excerpt

end Cut

/-! ## Labels -/

namespace Snippet

variable {text : String} {range : TextRange}

/-- Where a file is named for a label. -/
def heading (snippet : Snippet text range) (name : String) : String :=
  " --> " ++ name ++ ":" ++ toString snippet.lineNumber ++ ":" ++ toString snippet.column ++ "\n"

/-- The line on which a range starts, behind its number, and below it marks that begin under the
range: one for each character that the range covers of that line, but at least one. -/
def Shows (snippet : Snippet text range) (label : Label) (lines : String) : Prop :=
  ∃ above indent ending,
    lines = above ++ "\n" ++ toString snippet.lineNumber ++ " | " ++ snippet.line ++ "\n" ++
        indent ++ "".pushn (if label.isPrimary then '^' else '-') (max 1 snippet.marked.length) ++
        ending ++ "\n" ∧
      indent.length = (toString snippet.lineNumber ++ " | " ++ snippet.lead).length ∧
      (∀ c ∈ (above ++ indent).toList, c = ' ' ∨ c = '|') ∧
      ending = if label.message.isEmpty then "" else " " ++ label.message

end Snippet

namespace Diagnostic

variable {σ : Type} [SourceProvider σ]

theorem renderWithText_shows {text : String} {range : TextRange} (snippet : Snippet text range)
    (isNewFile : Bool) (name : String) (label : Label) :
    ∃ lines, snippet.Shows label lines ∧ renderWithText isNewFile name label snippet.excerpt =
      (if isNewFile then snippet.heading name else "") ++ lines := by
  let gutter := "".pushn ' ' (toString snippet.lineNumber).length ++ " |"
  refine ⟨_, ⟨gutter, gutter ++ " " ++ "".pushn ' ' snippet.lead.length, _, rfl, ?_, ?_, rfl⟩, ?_⟩
  · have bar : " |".length + " ".length = " | ".length := rfl
    simp [gutter, Nat.add_assoc, bar]
  · simp [gutter, Text.toList_pushn]
  · have border : " |" ++ "\n" = " |\n" := rfl
    have bar : " |" ++ " " = " | " := rfl
    simp only [renderWithText, Snippet.excerpt, Snippet.heading, Snippet.column, Excerpt.column,
      Excerpt.width, gutter, Nat.add_comm 1, Nat.max_comm 1]
    simp only [String.append_assoc, ← border, ← bar]

/-- The file that is named last. -/
def namedLast (current : Option FileId) (labels : List Label) : Option FileId :=
  (labels.getLast?.map (·.span.file)).or current

theorem renderLabels_append (sources : σ) (current : Option FileId) (front back : List Label) :
    renderLabels sources current (front ++ back) =
      renderLabels sources current front ++
        renderLabels sources (namedLast current front) back := by
  induction front generalizing current with
  | nil => simp [renderLabels_nil, namedLast]
  | cons label rest ih =>
    have last : namedLast current (label :: rest) = namedLast (some label.span.file) rest := by
      simp [namedLast, List.getLast?_cons]
    rw [List.cons_append, renderLabels_cons, renderLabels_cons, ih, last, String.append_assoc]

/-- Wherever a label on a file with text points, it is shown as the text cut at its range. The line
number counts the line breaks before the range, the column counts the characters since the last one,
and the line is the piece of the text between two line breaks on which the range starts. A place
that has a text, in a file that ranges can reach all of, is marked under that text. -/
theorem render_points_at_text (sources : σ) (diagnostic : Diagnostic) {front back : List Label}
    {label : Label} {text : String} (shown : diagnostic.shownLabels = front ++ label :: back)
    (known : SourceProvider.text? sources label.span.file = some text) :
    ∃ snippet : Snippet text label.span.range,
      (∃ title lines notes, snippet.Shows label lines ∧
        render sources diagnostic = title ++ renderLabels sources none front ++
          ((if front.getLast?.map (·.span.file) ≠ some label.span.file then
            snippet.heading ((SourceProvider.name? sources label.span.file).getD unknownFile)
            else "") ++ lines) ++
          renderLabels sources (some label.span.file) back ++ notes) ∧
      (∃ later, text = snippet.earlier ++ snippet.line ++ later ∧ '\n' ∉ snippet.line.toList ∧
        (later = "" ∨ ∃ more, later = "\n" ++ more)) ∧
      (text.utf8ByteSize < 2 ^ 32 → ∀ loc own, label.span.range = .ofLoc loc →
        loc.slice? text = some own → snippet.start = loc.start ∧ snippet.own = own) := by
  obtain ⟨snippet, excerpt⟩ := Excerpt.exists_snippet text label.span.range
  refine ⟨snippet, ?_, snippet.line_between, fun small loc own => snippet.own_of_slice? small⟩
  obtain ⟨lines, shows, layout⟩ := renderWithText_shows snippet
    (namedLast none front != some label.span.file)
    ((SourceProvider.name? sources label.span.file).getD unknownFile) label
  obtain ⟨title, notes, whole⟩ : ∃ title notes, render sources diagnostic =
      title ++ renderLabels sources none diagnostic.shownLabels ++ notes := ⟨_, _, rfl⟩
  refine ⟨title, lines, notes, shows, ?_⟩
  simp only [namedLast, Option.or_none, bne_iff_ne] at layout
  simp only [whole, shown, renderLabels_append, renderLabels_cons, known, excerpt, namedLast,
    Option.or_none, layout, String.append_assoc]

/-- A call over two lines with a remark on the body of its lambda. -/
def overTwoLines : Diagnostic :=
  { code := "LINQ0001", severity := .warning, message := "projection",
    primary := .ofLoc ⟨0⟩ ⟨0, 27⟩, labels := [⟨.ofLoc ⟨0⟩ ⟨24, 28⟩, "body", false⟩] }

theorem render_points_at_text_overTwoLines :
    let text := "größe\n  .Select(é => é)\n"
    let sources := SourceFiles.ofList [⟨"Orders.cs", some text⟩]
    let body : Label := ⟨.ofLoc ⟨0⟩ ⟨24, 28⟩, "body", false⟩
    overTwoLines.shownLabels = [⟨overTwoLines.primary, "projection", true⟩] ++ body :: [] ∧
      SourceProvider.text? sources body.span.file = some text ∧
      ∃ snippet : Snippet text body.span.range, snippet.start = 24 ∧ snippet.own = "é)\n" ∧
        ∃ lines, snippet.Shows body lines := by
  intro text sources body
  have shown : overTwoLines.shownLabels =
      [⟨overTwoLines.primary, "projection", true⟩] ++ body :: [] :=
    List.mergeSort_of_pairwise (by decide)
  have known : SourceProvider.text? sources body.span.file = some text := rfl
  obtain ⟨snippet, ⟨_, lines, _, shows, _⟩, _, placed⟩ :=
    render_points_at_text sources overTwoLines shown known
  obtain ⟨start, own⟩ := placed (by decide) ⟨24, 28⟩ "é)\n" rfl (by decide)
  exact ⟨shown, known, snippet, start, own, lines, shows⟩

end Diagnostic
end QueryAudit
