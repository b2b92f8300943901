import QueryAudit.Diagnostic.Render
import QueryAudit.Proofs.SortedDiagnostics

/-! The order in which labels are given. Labels are compared by all that they consist of, so no two
different ones tie, and there is one way to put them in order, the diagnostic's own message among
them. Which files are named depends on that order alone, so a diagnostic has the same text in
whatever order its labels are given. -/
namespace QueryAudit

namespace Label

variable {labels others arranged : List Label}

instance : Std.TransCmp order := by
  have spans : Std.TransCmp fun left right : Label => Span.order left.span right.span :=
    { eq_swap := Std.OrientedCmp.eq_swap
      isLE_trans := Std.TransCmp.isLE_trans }
  unfold order
  infer_instance

/-- Labels that tie are the same. -/
theorem order_eq_iff {left right : Label} : order left right = .eq ↔ left = right := by
  obtain ⟨leftSpan, leftMessage, leftPrimary⟩ := left
  obtain ⟨rightSpan, rightMessage, rightPrimary⟩ := right
  have parts : order ⟨leftSpan, leftMessage, leftPrimary⟩ ⟨rightSpan, rightMessage, rightPrimary⟩ =
      .eq ↔ leftPrimary = rightPrimary ∧ leftSpan = rightSpan ∧ leftMessage = rightMessage := by
    simp [order, compareLex_eq_eq, compareOn, Span.order_eq_iff]
  rw [parts, Label.mk.injEq]
  exact and_comm.trans and_assoc

/-- There is one way to put labels in order. -/
theorem eq_sort (permuted : arranged.Perm labels)
    (ordered : arranged.Pairwise fun left right => (order left right).isLE = true) :
    arranged = sort labels := by
  refine List.Perm.eq_of_pairwise ?_ ordered (sortBy_pairwise labels)
    (permuted.trans (List.mergeSort_perm labels _).symm)
  intro left right _ _ lower upper
  exact order_eq_iff.mp (Std.OrientedCmp.isLE_antisymm lower upper)

theorem sort_eq_of_perm (permuted : labels.Perm others) : sort labels = sort others :=
  eq_sort ((List.mergeSort_perm labels _).trans permuted) (sortBy_pairwise labels)

end Label

namespace Diagnostic

variable {σ : Type} [SourceProvider σ]

theorem shownLabels_eq_of_perm {diagnostic : Diagnostic} {labels : List Label}
    (reordered : diagnostic.labels.Perm labels) :
    { diagnostic with labels }.shownLabels = diagnostic.shownLabels :=
  Label.sort_eq_of_perm (reordered.symm.cons _)

/-- A diagnostic has the same text in whatever order its labels are given, on whatever files they
are and wherever the names and texts of these come from. What is shown is the only arrangement of
its own message and its labels that is in order, so it takes no particular way of sorting either. -/
theorem render_ignores_label_order (sources : σ) (diagnostic : Diagnostic) (labels : List Label)
    (reordered : diagnostic.labels.Perm labels) :
    render sources { diagnostic with labels } = render sources diagnostic ∧
      ∀ arranged : List Label,
        arranged.Perm (⟨diagnostic.primary, diagnostic.message, true⟩ :: labels) →
        arranged.Pairwise (fun left right => (Label.order left right).isLE = true) →
        arranged = diagnostic.shownLabels := by
  constructor
  · rw [render_eq, shownLabels_eq_of_perm reordered]
    rfl
  · intro arranged permuted ordered
    exact Label.eq_sort (permuted.trans (reordered.symm.cons _)) ordered

/-- A projection with its own message given once more as a label, and with remarks on two other
files, one of them twice. -/
def remarked : Diagnostic :=
  let type : Label := ⟨⟨⟨1⟩, ⟨6, 11⟩⟩, "declared here", false⟩
  let call : Label := ⟨⟨⟨0⟩, ⟨0, 6⟩⟩, "projection", true⟩
  { code := "LINQ0001", severity := .warning, message := "projection", primary := ⟨⟨0⟩, ⟨0, 6⟩⟩,
    labels := [⟨⟨⟨2⟩, ⟨3, 3⟩⟩, "", false⟩, type, call, type] }

theorem render_ignores_label_order_remarked :
    let sources := SourceFiles.ofList [⟨"Orders.cs", some "orders\n"⟩, ⟨"Shop.cs", none⟩]
    remarked.labels.Perm remarked.labels.reverse ∧ remarked.labels ≠ remarked.labels.reverse ∧
      render sources { remarked with labels := remarked.labels.reverse } =
        render sources remarked := by
  intro sources
  have reordered := (List.reverse_perm remarked.labels).symm
  exact ⟨reordered, by decide, (render_ignores_label_order sources remarked _ reordered).1⟩

end Diagnostic
end QueryAudit
