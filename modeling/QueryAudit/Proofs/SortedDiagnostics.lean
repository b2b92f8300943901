import Mathlib.Data.List.Basic
import QueryAudit.Diagnostic.Basic

/-! Sorting with a comparator that does not tell all items apart. Items that it takes for equal
stay in the order in which they came, so a sorted list still says in which order those were found.
Main statement: sorted diagnostics do not depend on the order in which they were found exactly when
no two different ones share span, code and message. -/
namespace QueryAudit

/-! ## Stable sorting -/

section Sorting

variable {α : Type} {order : α → α → Ordering} {item other : α} {left right items : List α}

/-- The items that the comparator takes for equal to a given one, in the order they come in. -/
def ties (order : α → α → Ordering) (item : α) (items : List α) : List α :=
  items.filter fun other => order item other == .eq

theorem mem_ties : other ∈ ties order item items ↔ other ∈ items ∧ order item other = .eq := by
  simp [ties]

theorem ties_cons_of_eq (equal : order item other = .eq) (items : List α) :
    ties order item (other :: items) = other :: ties order item items := by
  simp [ties, equal]

theorem ties_cons_of_ne (different : order item other ≠ .eq) (items : List α) :
    ties order item (other :: items) = ties order item items := by
  simp [ties, different]

/-- Sorts from the least item to the greatest. -/
abbrev sortBy (order : α → α → Ordering) (items : List α) : List α :=
  items.mergeSort fun first second => (order first second).isLE

variable [Std.TransCmp order]

theorem isLE_total (first second : α) :
    ((order first second).isLE || (order second first).isLE) = true := by
  have swapped : order second first = (order first second).swap := Std.OrientedCmp.eq_swap
  rw [swapped]
  cases order first second <;> rfl

theorem sortBy_pairwise (items : List α) :
    (sortBy order items).Pairwise fun first second => (order first second).isLE = true :=
  List.pairwise_mergeSort (fun _ _ _ => Std.TransCmp.isLE_trans) isLE_total items

theorem ties_pairwise (item : α) (items : List α) :
    (ties order item items).Pairwise fun first second => (order first second).isLE = true := by
  apply List.pairwise_of_forall_mem_list
  intro first isFirst second isSecond
  have back : order first item = .eq := Std.OrientedCmp.eq_comm.mp (mem_ties.mp isFirst).2
  have equal : order first second = .eq := Std.TransCmp.eq_trans back (mem_ties.mp isSecond).2
  rw [equal]
  rfl

/-- Sorting leaves items with the same key in the order they came in. -/
theorem ties_sortBy (item : α) (items : List α) :
    ties order item (sortBy order items) = ties order item items := by
  have among : (ties order item items).Sublist (sortBy order items) :=
    List.sublist_mergeSort (fun _ _ _ => Std.TransCmp.isLE_trans) isLE_total
      (ties_pairwise item items) List.filter_sublist
  have kept : (ties order item items).Sublist (ties order item (sortBy order items)) := by
    have filtered := among.filter fun other => order item other == .eq
    simpa only [ties, List.filter_filter, Bool.and_self] using filtered
  have length : (ties order item (sortBy order items)).length = (ties order item items).length :=
    ((List.mergeSort_perm items _).filter _).length_eq
  exact (kept.eq_of_length length.symm).symm

/-- Sorted lists are the same when they hold the same items under every key, in the same order. -/
theorem eq_of_ties (leftSorted : left.Pairwise fun first second => (order first second).isLE = true)
    (rightSorted : right.Pairwise fun first second => (order first second).isLE = true)
    (same : ∀ item, ties order item left = ties order item right) : left = right := by
  induction left generalizing right with
  | nil =>
    cases right with
    | nil => rfl
    | cons head tail =>
      have found := same head
      rw [ties_cons_of_eq Std.ReflCmp.compare_self] at found
      cases found
  | cons first leftRest ih =>
    cases right with
    | nil =>
      have found := same first
      rw [ties_cons_of_eq Std.ReflCmp.compare_self] at found
      cases found
    | cons second rightRest =>
      rw [List.pairwise_cons] at leftSorted rightSorted
      -- each head stands in the other list too, so neither comes before the other
      have firstListed : first ∈ second :: rightRest := by
        have own : first ∈ ties order first (first :: leftRest) :=
          mem_ties.mpr ⟨List.mem_cons_self, Std.ReflCmp.compare_self⟩
        rw [same first] at own
        exact (mem_ties.mp own).1
      have secondListed : second ∈ first :: leftRest := by
        have own : second ∈ ties order second (second :: rightRest) :=
          mem_ties.mpr ⟨List.mem_cons_self, Std.ReflCmp.compare_self⟩
        rw [← same second] at own
        exact (mem_ties.mp own).1
      have equal : order first second = .eq := by
        rcases List.mem_cons.mp firstListed with rfl | firstLater
        · exact Std.ReflCmp.compare_self
        · rcases List.mem_cons.mp secondListed with rfl | secondLater
          · exact Std.ReflCmp.compare_self
          · exact Std.OrientedCmp.isLE_antisymm (leftSorted.1 second secondLater)
              (rightSorted.1 first firstLater)
      have heads := same first
      rw [ties_cons_of_eq Std.ReflCmp.compare_self, ties_cons_of_eq equal] at heads
      cases (List.cons.inj heads).1
      refine congrArg (first :: ·) (ih leftSorted.2 rightSorted.2 ?_)
      intro item
      have found := same item
      by_cases tied : order item first = .eq
      · rw [ties_cons_of_eq tied, ties_cons_of_eq tied] at found
        exact (List.cons.inj found).2
      · rwa [ties_cons_of_ne tied, ties_cons_of_ne tied] at found

/-- Two lists are sorted into the same one exactly when their ties come in the same order. -/
theorem sortBy_eq_iff :
    sortBy order left = sortBy order right ↔
      ∀ item, ties order item left = ties order item right := by
  constructor
  · intro same item
    rw [← ties_sortBy item left, ← ties_sortBy item right, same]
  · intro same
    apply eq_of_ties (sortBy_pairwise left) (sortBy_pairwise right)
    intro item
    rw [ties_sortBy, ties_sortBy, same]

/-- Sorting does not depend on the order of a list exactly when its ties are repetitions of one
item. -/
theorem sortBy_perm_iff (items : List α) :
    (∀ reordered, items.Perm reordered → sortBy order items = sortBy order reordered) ↔
      ∀ first ∈ items, ∀ second ∈ items, order first second = .eq → first = second := by
  constructor
  · intro free first isFirst second isSecond equal
    -- put either of the two in front: the first of their ties is then that one
    obtain ⟨before, after, rfl⟩ := List.append_of_mem isFirst
    have firstAhead := sortBy_eq_iff.mp (free _ List.perm_middle) first
    obtain ⟨others, more, split⟩ := List.append_of_mem isSecond
    rw [split] at free firstAhead
    have secondAhead := sortBy_eq_iff.mp (free _ List.perm_middle) first
    rw [ties_cons_of_eq Std.ReflCmp.compare_self] at firstAhead
    rw [ties_cons_of_eq equal, firstAhead] at secondAhead
    exact (List.cons.inj secondAhead).1
  · intro apart reordered permuted
    refine List.Perm.eq_of_pairwise ?_ (sortBy_pairwise items) (sortBy_pairwise reordered) ?_
    · intro first second isFirst isSecond lower upper
      have inItems : second ∈ items := permuted.mem_iff.mpr (List.mem_mergeSort.mp isSecond)
      exact apart first (List.mem_mergeSort.mp isFirst) second inItems
        (Std.OrientedCmp.isLE_antisymm lower upper)
    · exact (List.mergeSort_perm items _).trans (permuted.trans (List.mergeSort_perm _ _).symm)

end Sorting

/-! ## Diagnostics -/

namespace Span

instance : Std.TransCmp order := by
  unfold order
  infer_instance

theorem order_eq_iff {left right : Span} : order left right = .eq ↔ left = right := by
  obtain ⟨⟨leftFile⟩, ⟨leftStart, leftStop⟩⟩ := left
  obtain ⟨⟨rightFile⟩, ⟨rightStart, rightStop⟩⟩ := right
  simp [order, compareLex_eq_eq, compareOn]

end Span

namespace Diagnostic

/-- A diagnostic with a given span, code and message. -/
def HasKey (primary : Span) (code message : String) (diagnostic : Diagnostic) : Prop :=
  diagnostic.primary = primary ∧ diagnostic.code = code ∧ diagnostic.message = message

instance (primary : Span) (code message : String) : DecidablePred (HasKey primary code message) :=
  fun _ => inferInstanceAs (Decidable (_ ∧ _ ∧ _))

instance : Std.TransCmp order := by
  have spans : Std.TransCmp fun left right : Diagnostic =>
      Span.order left.primary right.primary :=
    { eq_swap := Std.OrientedCmp.eq_swap
      isLE_trans := Std.TransCmp.isLE_trans }
  unfold order
  infer_instance

theorem order_eq_iff {left right : Diagnostic} :
    order left right = .eq ↔ HasKey left.primary left.code left.message right := by
  simp only [order, compareLex_eq_eq, compareOn, Span.order_eq_iff, HasKey,
    Std.LawfulEqCmp.compare_eq_iff_eq]
  rw [eq_comm, @eq_comm _ left.code, @eq_comm _ left.message]

theorem ties_order (diagnostic : Diagnostic) (found : List Diagnostic) :
    ties order diagnostic found =
      found.filter (HasKey diagnostic.primary diagnostic.code diagnostic.message ·) := by
  apply List.filter_congr
  intro other _
  rw [Bool.eq_iff_iff, beq_iff_eq, order_eq_iff, decide_eq_true_eq]

/-- Sorted diagnostics still show the order in which those with the same span, code and message
were found. So two lists are sorted into the same one exactly when they agree on that order, and
a list is sorted the same way in whatever order it was found exactly when no two different
diagnostics in it share span, code and message. -/
theorem sort_shows_order_of_ties (found others : List Diagnostic) :
    (sort found = sort others ↔
      ∀ primary code message,
        found.filter (HasKey primary code message ·) =
          others.filter (HasKey primary code message ·)) ∧
      ((∀ reordered, found.Perm reordered → sort found = sort reordered) ↔
        ∀ first ∈ found, ∀ second ∈ found, first.primary = second.primary →
          first.code = second.code → first.message = second.message → first = second) := by
  constructor
  · rw [sort, sort, sortBy_eq_iff]
    simp only [ties_order]
    constructor
    · intro same primary code message
      exact same { code, severity := .warning, message, primary }
    · intro same diagnostic
      exact same diagnostic.primary diagnostic.code diagnostic.message
  · refine (sortBy_perm_iff found).trans ?_
    simp only [order_eq_iff, HasKey, and_imp]
    constructor
    · intro apart first isFirst second isSecond primary code message
      exact apart first isFirst second isSecond primary.symm code.symm message.symm
    · intro apart first isFirst second isSecond primary code message
      exact apart first isFirst second isSecond primary.symm code.symm message.symm

/-- The report on a call without a place that projects the named type. -/
def ofRow (typeName : String) : Diagnostic :=
  let nowhere : Span := ⟨⟨0⟩, ⟨0, 0⟩⟩
  let warning := Code.nonRemoteProjection.warning
    "query cannot be translated for remote evaluation: `orders.Select(o => o.Row)`" nowhere
  { warning with labels :=
      [⟨nowhere, "`" ++ typeName ++ "` is not representable by the remote query provider", false⟩] }

/-- Two calls that have no place and print alike, but project different types, are reported in
the order in which they were found. -/
theorem sort_depends_on_order :
    [ofRow "Money", ofRow "Stream"].Perm [ofRow "Stream", ofRow "Money"] ∧
      sort [ofRow "Money", ofRow "Stream"] ≠ sort [ofRow "Stream", ofRow "Money"] := by
  have unmoved (first second : String) :
      sort [ofRow first, ofRow second] = [ofRow first, ofRow second] := by
    apply List.mergeSort_of_pairwise
    have tied : order (ofRow first) (ofRow second) = .eq := order_eq_iff.mpr ⟨rfl, rfl, rfl⟩
    simp [tied]
  refine ⟨.swap _ _ _, ?_⟩
  rw [unmoved, unmoved]
  decide

end Diagnostic
end QueryAudit
