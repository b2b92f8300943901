import QueryAudit.Diagnostic.Render

/-! The same diagnostics on another file. Which file they are on changes neither the order of
diagnostics on one file nor their text, as long as name and text of the file are the same. -/
namespace QueryAudit

variable {file other : FileId}

def Span.inFile (file : FileId) (span : Span) : Span :=
  ⟨file, span.range⟩

def Label.inFile (file : FileId) (label : Label) : Label :=
  ⟨label.span.inFile file, label.message, label.isPrimary⟩

/-- A diagnostic on the same places of a given file. -/
def Diagnostic.inFile (file : FileId) (diagnostic : Diagnostic) : Diagnostic :=
  { diagnostic with
    primary := diagnostic.primary.inFile file
    labels := diagnostic.labels.map (Label.inFile file) }

/-- An order that only looks at the file when files differ sorts the same way in every file. -/
theorem mergeSort_inFile {α : Type} {order : α → α → Ordering} {move : FileId → α → α}
    (again : ∀ item, move file (move other item) = move file item)
    (same : ∀ left right,
      order (move file left) (move file right) = order (move other left) (move other right))
    (items : List α) :
    (items.map (move file)).mergeSort (fun left right => (order left right).isLE) =
      ((items.map (move other)).mergeSort fun left right => (order left right).isLE).map
        (move file) := by
  have moved : items.map (move file) = (items.map (move other)).map (move file) := by
    rw [List.map_map]
    exact List.map_congr_left fun item _ => (again item).symm
  rw [moved]
  refine (List.map_mergeSort fun left isLeft right isRight => ?_).symm
  obtain ⟨leftOrigin, _, rfl⟩ := List.mem_map.mp isLeft
  obtain ⟨rightOrigin, _, rfl⟩ := List.mem_map.mp isRight
  rw [again, again, same]

/-- Within one file the order of spans is the order of their ranges. -/
theorem Span.order_inFile (left right : Span) :
    Span.order (left.inFile file) (right.inFile file) =
      Span.order (left.inFile other) (right.inFile other) := by
  simp [Span.order, Span.inFile, compareLex, compareOn]

namespace Label

theorem inFile_inFile (label : Label) : (label.inFile other).inFile file = label.inFile file :=
  rfl

theorem order_inFile (left right : Label) :
    order (left.inFile file) (right.inFile file) =
      order (left.inFile other) (right.inFile other) := by
  simp only [order, compareLex, compareOn, inFile]
  rw [Span.order_inFile]

theorem sort_inFile (labels : List Label) :
    sort (labels.map (inFile file)) = (sort (labels.map (inFile other))).map (inFile file) :=
  mergeSort_inFile inFile_inFile order_inFile labels

end Label

namespace Diagnostic

theorem inFile_inFile (diagnostic : Diagnostic) :
    (diagnostic.inFile other).inFile file = diagnostic.inFile file := by
  simp only [inFile, List.map_map]
  rfl

theorem order_inFile (left right : Diagnostic) :
    order (left.inFile file) (right.inFile file) =
      order (left.inFile other) (right.inFile other) := by
  simp only [order, compareLex, compareOn, inFile]
  rw [Span.order_inFile]

/-- Diagnostics on one file are shown in the same order as on another. -/
theorem sort_inFile (diagnostics : List Diagnostic) :
    sort (diagnostics.map (inFile file)) =
      (sort (diagnostics.map (inFile other))).map (inFile file) :=
  mergeSort_inFile inFile_inFile order_inFile diagnostics

variable {sources others : SourceFiles}

/-- Labels on files of the same name and text have the same text; `named` says whether the file
was named before. -/
theorem renderLabels_inFile (same : sources.files[file.index]? = others.files[other.index]?)
    (named : Bool) (labels : List Label) :
    renderLabels sources (if named then some file else none) (labels.map (Label.inFile file)) =
      renderLabels others (if named then some other else none)
        (labels.map (Label.inFile other)) := by
  induction labels generalizing named with
  | nil => rfl
  | cons label rest ih =>
    have name : sources.name? file = others.name? other := by
      rw [SourceFiles.name?, SourceFiles.name?, same]
    have text : sources.text? file = others.text? other := by
      rw [SourceFiles.text?, SourceFiles.text?, same]
    have fresh : ((if named then some file else none) != some file) =
        ((if named then some other else none) != some other) := by
      cases named with
      | false => rfl
      | true => simp
    have later := ih true
    simp only [↓reduceIte] at later
    simp only [List.map_cons, renderLabels_cons, Label.inFile, Span.inFile, SourceFiles.provided_name?,
      SourceFiles.provided_text?, name, text, fresh]
    rw [← later]
    rfl

/-- A diagnostic has the same text on files of the same name and text. -/
theorem render_inFile (same : sources.files[file.index]? = others.files[other.index]?)
    (diagnostic : Diagnostic) :
    (diagnostic.inFile file).render sources = (diagnostic.inFile other).render others := by
  have labels (file : FileId) : (diagnostic.inFile file).shownLabels =
      (diagnostic.inFile other).shownLabels.map (Label.inFile file) :=
    Label.sort_inFile (⟨diagnostic.primary, diagnostic.message, true⟩ :: diagnostic.labels)
  have shown : renderLabels sources none (diagnostic.inFile file).shownLabels =
      renderLabels others none (diagnostic.inFile other).shownLabels := by
    have mapped := renderLabels_inFile same false (diagnostic.inFile other).shownLabels
    rw [← labels file, ← labels other] at mapped
    exact mapped
  rw [render_eq, render_eq, shown]
  rfl

end Diagnostic
end QueryAudit
