import Mathlib.Data.List.Permutation
import QueryAudit.Proofs.CancelledPasses

/-! Trees that are checked in one pass do not influence each other. The memory and the marks of
settled calls are carried from one tree to the next; but what is remembered changes no answer, and
a call never marks a call of another tree, because a chained receiver stands in the tree of the call
around it. -/
namespace QueryAudit.Pass

variable {config : Config} {model : Model} {context : Context} {flag : Cancellation}

/-! ## Sites of two lists of trees -/

/-- Visits of some calls leave no mark on the calls after them, when every chained receiver is among
these calls. -/
theorem settleOrder_append_linked {settled : Bool} {number : Nat} {left : List Call}
    (linked : Linked config left) (right : List Call) :
    settleOrder config settled number (left ++ right) =
      settleOrder config settled number left ++
        settleOrder config (left.isEmpty && settled) (number + left.length) right := by
  induction left generalizing settled number with
  | nil => rfl
  | cons call rest ih =>
    have unmarked : (rest.isEmpty && (call.chained? config).isSome) = false := by
      cases chained : call.chained? config with
      | none => exact Bool.and_false _
      | some receiver =>
        have next := linked.1 receiver chained
        cases rest with
        | nil => cases next
        | cons _ _ => rfl
    rw [List.cons_append, settleOrder, ih linked.2, unmarked, settleOrder, List.append_assoc,
      List.length_cons, Nat.add_right_comm, Nat.add_assoc]
    rfl

/-- A site counted from another number. -/
def Site.shift (offset : Nat) (site : Site) : Site :=
  (site.1, site.2 + offset)

/-- The numbers of calls are of no consequence for the order. -/
theorem settleOrder_shift (settled : Bool) (number offset : Nat) (calls : List Call) :
    settleOrder config settled (number + offset) calls =
      (settleOrder config settled number calls).map (Site.shift offset) := by
  induction calls generalizing settled number with
  | nil => rfl
  | cons call rest ih =>
    have own : siteOrder config settled (number + offset) call =
        (siteOrder config settled number call).map (Site.shift offset) := by
      unfold siteOrder
      rw [List.map_append, List.map_map, Nat.add_right_comm]
      congr 1
      split <;> rfl
    rw [settleOrder, settleOrder, List.map_append, own, Nat.add_right_comm, ih]

/-- The sites of some trees are settled before those of the trees after them. -/
theorem sitesOf_append (config : Config) (left right : List Expr) :
    sitesOf config (left ++ right) = sitesOf config left ++
      (sitesOf config right).map (Site.shift (Expr.childCalls left).length) := by
  have calls : Expr.childCalls (left ++ right) = Expr.childCalls left ++ Expr.childCalls right := by
    simp only [Expr.childCalls_eq, List.flatMap_append]
  rw [sitesOf, calls, settleOrder_append_linked (childCalls_linked config left), Bool.and_false,
    settleOrder_shift]
  rfl

/-! ## Passes -/

/-- A flag that no reading shows set makes no difference. -/
theorem visitAll_uncancelled {calls : List Call}
    (uncancelled : (visitAll context flag {} 0 calls).2.cancelled = false) :
    visitAll context flag {} 0 calls = visitAll context .never {} 0 calls := by
  obtain ⟨count, halts⟩ := exists_haltsAt context flag calls
  have last : ¬ count < calls.length := by
    rw [← halts.cancelled_iff, uncancelled]
    exact Bool.false_ne_true
  have all : count = calls.length := Nat.le_antisymm halts.within (Nat.le_of_not_lt last)
  rw [halts.visitAll_eq, if_neg last, all, upTo_length]

theorem checkUnit_uncancelled {unit : SourceUnit}
    (uncancelled : (checkUnit config model flag unit).summary.cancelled = false) :
    checkUnit config model flag unit = checkUnit config model .never unit := by
  let context : Context := ⟨config, model, unit.file, unit.text⟩
  have same : visitAll context flag {} 0 (Expr.childCalls unit.roots) =
      visitAll context .never {} 0 (Expr.childCalls unit.roots) := visitAll_uncancelled uncancelled
  simp only [checkUnit, run, context, same]

/-- A pass over some trees and then over others finds what passes over the two lists find, in this
order, and settles and reports as many calls, as long as none of the passes is cancelled. -/
theorem checkUnit_roots_independent (config : Config) (model : Model) (file : FileId)
    (text : Option String) (left right : List Expr) (flag leftFlag rightFlag : Cancellation)
    (uncancelled :
      (checkUnit config model flag ⟨file, text, left ++ right⟩).summary.cancelled = false)
    (leftUncancelled :
      (checkUnit config model leftFlag ⟨file, text, left⟩).summary.cancelled = false)
    (rightUncancelled :
      (checkUnit config model rightFlag ⟨file, text, right⟩).summary.cancelled = false) :
    let whole := checkUnit config model flag ⟨file, text, left ++ right⟩
    let first := checkUnit config model leftFlag ⟨file, text, left⟩
    let second := checkUnit config model rightFlag ⟨file, text, right⟩
    whole.diagnostics = first.diagnostics ++ second.diagnostics ∧
      whole.summary.classified = first.summary.classified + second.summary.classified ∧
      whole.summary.reported = first.summary.reported + second.summary.reported := by
  rw [checkUnit_uncancelled uncancelled, checkUnit_uncancelled leftUncancelled,
    checkUnit_uncancelled rightUncancelled]
  obtain ⟨found, summary⟩ := checkUnit_settles config model ⟨file, text, left ++ right⟩
  obtain ⟨leftFound, leftSummary⟩ := checkUnit_settles config model ⟨file, text, left⟩
  obtain ⟨rightFound, rightSummary⟩ := checkUnit_settles config model ⟨file, text, right⟩
  intro whole first second
  refine ⟨?_, ?_, ?_⟩
  · rw [show whole.diagnostics = _ from found, show first.diagnostics = _ from leftFound,
      show second.diagnostics = _ from rightFound, sitesOf_append, List.flatMap_append,
      List.flatMap_map]
    rfl
  · rw [show whole.summary = _ from summary, show first.summary = _ from leftSummary,
      show second.summary = _ from rightSummary]
    simp only [sitesOf_append, List.length_append, List.length_map]
  · rw [show whole.summary = _ from summary, show first.summary = _ from leftSummary,
      show second.summary = _ from rightSummary]
    simp only [sitesOf_append, List.countP_append, List.countP_map]
    rfl

/-- A query for whole orders, of a type that is declared elsewhere. -/
def orderQuery : Expr :=
  .call ⟨{}, ⟨{}, { symbol := some (.method "Select" (some "System.Linq.Queryable")) }⟩⟩
    (.member {} (.identifier {} "orders") "Select")
    [{ value := .lambda {} ["o"] (.identifier ⟨⟨{}, { convertedType := some ⟨19⟩ }⟩, {}⟩ "o") }]

/-- The query in two trees: in the second one its type is remembered from the first. A flag that is
set after two readings is not read any more. -/
theorem checkUnit_roots_independent_orders :
    let model : Model := .ofFacts (Store.empty.named "Order").2
    let check flag roots := checkUnit .default model flag ⟨⟨0⟩, none, roots⟩
    let whole := check (.showing (2 ≤ ·)) ([orderQuery] ++ [.paren {} orderQuery])
    let first := check (.showing (1 ≤ ·)) [orderQuery]
    let second := check .never [.paren {} orderQuery]
    (whole.summary.cancelled = false ∧ first.summary.cancelled = false ∧
        second.summary.cancelled = false) ∧
      whole.diagnostics = first.diagnostics ++ second.diagnostics ∧
      whole.summary.classified = first.summary.classified + second.summary.classified ∧
      whole.summary.reported = first.summary.reported + second.summary.reported := by
  intro model check whole first second
  have uncancelled : whole.summary.cancelled = false := by cbv
  have firstUncancelled : first.summary.cancelled = false := by cbv
  have secondUncancelled : second.summary.cancelled = false := by cbv
  exact ⟨⟨uncancelled, firstUncancelled, secondUncancelled⟩,
    checkUnit_roots_independent .default model ⟨0⟩ none _ _ _ _ _ uncancelled firstUncancelled
      secondUncancelled⟩

end QueryAudit.Pass
