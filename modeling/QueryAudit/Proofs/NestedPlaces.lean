import Mathlib.Data.List.Basic
import Mathlib.Order.Basic
import QueryAudit.Proofs.LocatedTrees
import QueryAudit.Proofs.PassLogs

/-! How the places of a located tree lie to each other. The nodes of an expression form a tree of
their own: the outer node is above the inner one, that one above the parts, and an argument or a
member above its value. After locating, as far as nodes are written, each lies in the one above it,
those beside each other come one after the other, and so nodes are visited in the order in which
they start. A call and the body of the lambda it is judged by are two of these nodes. -/
namespace QueryAudit

namespace Loc

/-- One place lies in another. -/
def Within (inner outer : Loc) : Prop :=
  outer.start ≤ inner.start ∧ inner.stop ≤ outer.stop

theorem spanning_forward (start : Nat) (text : String) :
    (spanning start text).start ≤ (spanning start text).stop :=
  Nat.le_add_right _ _

theorem within_spanning {text own : String} {offset : Nat} (stands : Text.Stands text offset own)
    (start : Nat) : (spanning (start + offset) own).Within (spanning start text) := by
  obtain ⟨before, after, rfl, rfl, _⟩ := Text.slice?_eq_some_iff.mp stands
  simp only [Within, spanning, String.utf8ByteSize_append]
  omega

end Loc

/-! ## Trees of nodes -/

/-- A node and the nodes directly below it, in visiting order. -/
inductive NodeTree where
  | mk (node : Node) (below : List NodeTree)

namespace NodeTree

variable {tree : NodeTree}

def loc : NodeTree → Loc
  | mk node _ => node.mark.loc

mutual

/-- The nodes of a tree, each before those below it. -/
def preorder : NodeTree → List Node
  | mk node below => node :: preorderAll below

def preorderAll : List NodeTree → List Node
  | [] => []
  | tree :: rest => preorder tree ++ preorderAll rest

end

mutual

/-- A tree without what is below shapes that are given by their text. -/
def written : NodeTree → NodeTree
  | mk node below => mk node (if node.kind = .other then [] else writtenAll below)

def writtenAll : List NodeTree → List NodeTree
  | [] => []
  | tree :: rest => written tree :: writtenAll rest

end

theorem preorderAll_eq (trees : List NodeTree) : preorderAll trees = trees.flatMap preorder := by
  induction trees with
  | nil => rfl
  | cons tree rest ih => rw [preorderAll, ih, List.flatMap_cons]

theorem writtenAll_eq (trees : List NodeTree) : writtenAll trees = trees.map written := by
  induction trees with
  | nil => rfl
  | cons tree rest ih => rw [writtenAll, ih, List.map_cons]

mutual

/-- What is written is visited in the same order. -/
theorem preorder_written (tree : NodeTree) : tree.written.preorder.Sublist tree.preorder := by
  cases tree with
  | mk node below =>
    rw [written, preorder, preorder]
    split
    · exact (List.nil_sublist _).cons_cons node
    · exact (preorderAll_written below).cons_cons node

theorem preorderAll_written (trees : List NodeTree) :
    (preorderAll (writtenAll trees)).Sublist (preorderAll trees) := by
  cases trees with
  | nil => exact .slnil
  | cons tree rest => exact (preorder_written tree).append (preorderAll_written rest)

end

@[simp] theorem loc_written (tree : NodeTree) : tree.written.loc = tree.loc := by
  cases tree
  rfl

/-- Places lie like the tree: each in the one above it, and those beside each other in order and
without a common byte. -/
inductive Nested : NodeTree → Prop where
  | mk {node : Node} {below : List NodeTree} (forward : node.mark.loc.start ≤ node.mark.loc.stop)
      (within : ∀ tree ∈ below, tree.loc.Within node.mark.loc)
      (ordered : below.Pairwise fun left right => left.loc.stop ≤ right.loc.start)
      (deeper : ∀ tree ∈ below, Nested tree) : Nested (mk node below)

theorem Nested.single {node : Node} (nested : Nested tree)
    (forward : node.mark.loc.start ≤ node.mark.loc.stop)
    (within : tree.loc.Within node.mark.loc) : Nested (.mk node [tree]) := by
  refine .mk forward ?_ (List.pairwise_singleton _ _) ?_
  · intro child listed
    cases List.mem_singleton.mp listed
    exact within
  · intro child listed
    cases List.mem_singleton.mp listed
    exact nested

/-- Every node of a tree lies in its root. -/
theorem Nested.bounds (nested : Nested tree) : ∀ node ∈ tree.preorder,
    node.mark.loc.Within tree.loc ∧ node.mark.loc.start ≤ node.mark.loc.stop := by
  induction nested with
  | @mk root below forward within _ _ ih =>
    intro node listed
    rw [preorder, preorderAll_eq] at listed
    rcases List.mem_cons.mp listed with rfl | deeper
    · exact ⟨⟨Nat.le_refl _, Nat.le_refl _⟩, forward⟩
    · obtain ⟨child, isChild, inChild⟩ := List.mem_flatMap.mp deeper
      obtain ⟨inner, ownForward⟩ := ih child isChild node inChild
      have outer := within child isChild
      exact ⟨⟨outer.1.trans inner.1, inner.2.trans outer.2⟩, ownForward⟩

/-- Nodes are visited in the order in which they start. -/
theorem Nested.starts_ordered (nested : Nested tree) :
    tree.preorder.Pairwise fun first second => first.mark.loc.start ≤ second.mark.loc.start := by
  induction nested with
  | @mk root below forward within ordered deeper ih =>
    have whole := (Nested.mk forward within ordered deeper).bounds
    rw [preorder, preorderAll_eq] at whole ⊢
    refine List.pairwise_cons.mpr ⟨?_, List.pairwise_flatMap.mpr ⟨ih, ?_⟩⟩
    · intro node listed
      exact (whole node (List.mem_cons_of_mem _ listed)).1.1
    · -- all of the left tree starts before its end, and all of the right one after its start
      refine ordered.imp_of_mem ?_
      intro left right isLeft isRight before first inLeft second inRight
      obtain ⟨⟨_, firstStop⟩, firstForward⟩ := (deeper left isLeft).bounds first inLeft
      obtain ⟨⟨secondStart, _⟩, _⟩ := (deeper right isRight).bounds second inRight
      omega

end NodeTree

/-! ## The nodes of an expression -/

namespace Expr

variable {start : Nat} {expr part : Expr}

/-- The kind of the inner node. -/
def kind : Expr → NodeKind
  | anonymous .. => .anonymous
  | call .. => .call
  | cast .. => .cast
  | identifier .. => .identifier
  | lambda .. => .lambda
  | literal .. => .literal
  | member .. => .member
  | paren .. => .paren
  | other .. => .other

/-- The outer node of an expression above the inner one, which is above all that is in it. -/
def pairTree (marks : Marks) (kind : NodeKind) (below : List NodeTree) : NodeTree :=
  .mk ⟨.expr, marks.outer⟩ [.mk ⟨kind, marks.inner⟩ below]

mutual

/-- The nodes of an expression as a tree. -/
def nodeTree : Expr → NodeTree
  | anonymous marks members => pairTree marks .anonymous (slotTrees .anonymousMember members)
  | call marks callee arguments =>
    pairTree marks .call (nodeTree callee :: slotTrees .argument arguments)
  | cast marks _ value => pairTree marks .cast [nodeTree value]
  | identifier marks _ => pairTree marks .identifier []
  | lambda marks _ body => pairTree marks .lambda [nodeTree body]
  | literal marks _ => pairTree marks .literal []
  | member marks left _ => pairTree marks .member [nodeTree left]
  | paren marks value => pairTree marks .paren [nodeTree value]
  | other marks _ children => pairTree marks .other (childTrees children)

def slotTrees (kind : NodeKind) : List (Slot Expr) → List NodeTree
  | [] => []
  | ⟨mark, _, value⟩ :: rest => .mk ⟨kind, mark⟩ [nodeTree value] :: slotTrees kind rest

def childTrees : List Expr → List NodeTree
  | [] => []
  | child :: rest => nodeTree child :: childTrees rest

end

/-- An argument or a member above its value. -/
def slotTree (kind : NodeKind) (slot : Slot Expr) : NodeTree :=
  .mk ⟨kind, slot.mark⟩ [slot.value.nodeTree]

theorem slotTrees_eq (kind : NodeKind) (slots : List (Slot Expr)) :
    slotTrees kind slots = slots.map (slotTree kind) := by
  induction slots with
  | nil => rfl
  | cons slot rest ih => rw [slotTrees, ih, List.map_cons, slotTree]

theorem childTrees_eq (children : List Expr) : childTrees children = children.map nodeTree := by
  induction children with
  | nil => rfl
  | cons child rest ih => rw [childTrees, ih, List.map_cons]

theorem preorder_pairTree (marks : Marks) (kind : NodeKind) (below : List NodeTree) :
    (pairTree marks kind below).preorder = pair marks kind ++ below.flatMap NodeTree.preorder := by
  simp [pairTree, pair, NodeTree.preorder, NodeTree.preorderAll_eq]

/-- The tree is visited from its root on. -/
theorem preorder_nodeTree (expr : Expr) : expr.nodeTree.preorder = expr.nodes := by
  have ofSlots (kind : NodeKind) (slots : List (Slot Expr))
      (same : ∀ slot ∈ slots, slot.value.nodeTree.preorder = slot.value.nodes) :
      (slotTrees kind slots).flatMap NodeTree.preorder = slotNodes kind slots := by
    rw [slotTrees_eq, slotNodes_eq, List.flatMap_map]
    refine List.flatMap_congr fun slot listed => ?_
    simp [slotTree, NodeTree.preorder, NodeTree.preorderAll_eq, same slot listed]
  induction expr with
  | anonymous marks members ih => rw [nodeTree, preorder_pairTree, ofSlots _ _ ih, nodes]
  | call marks callee arguments ihCallee ihArguments =>
    rw [nodeTree, preorder_pairTree, List.flatMap_cons, ihCallee, ofSlots _ _ ihArguments, nodes,
      List.append_assoc]
  | cast _ _ _ ih | lambda _ _ _ ih | member _ _ _ ih | paren _ _ ih =>
    rw [nodeTree, preorder_pairTree, List.flatMap_singleton, ih, nodes]
  | identifier | literal =>
    rw [nodeTree, preorder_pairTree, List.flatMap_nil, List.append_nil, nodes]
  | other marks text children ih =>
    rw [nodeTree, preorder_pairTree, nodes, childTrees_eq, childNodes_eq, List.flatMap_map]
    exact congrArg _ (List.flatMap_congr ih)

/-! ## What is written -/

/-- What holds of an expression whenever it holds of what is written with it holds of every
expression. -/
theorem parts_induction {motive : Expr → Prop}
    (step : ∀ expr, (∀ part ∈ expr.parts, motive part) → motive expr) (expr : Expr) :
    motive expr := by
  induction expr with
  | anonymous marks members ih => exact step _ (by simpa [parts, immediate] using ih)
  | call marks callee arguments ihCallee ihArguments =>
    exact step _ (by simpa [parts, immediate, ihCallee] using ihArguments)
  | cast _ _ _ ih | lambda _ _ _ ih | member _ _ _ ih | paren _ _ ih =>
    exact step _ (by simpa [parts, immediate] using ih)
  | identifier | literal | other => exact step _ (by simp [parts, immediate])

/-- What is written below the inner node of an expression. -/
def partTrees : Expr → List NodeTree
  | anonymous _ members => members.map (slotTree .anonymousMember)
  | call _ callee arguments => callee.nodeTree :: arguments.map (slotTree .argument)
  | cast _ _ value => [value.nodeTree]
  | lambda _ _ body => [body.nodeTree]
  | member _ left _ => [left.nodeTree]
  | paren _ value => [value.nodeTree]
  | identifier .. | literal .. | other .. => []

theorem written_nodeTree (expr : Expr) :
    expr.nodeTree.written =
      pairTree expr.marks expr.kind (expr.partTrees.map NodeTree.written) := by
  cases expr <;>
    simp [nodeTree, pairTree, NodeTree.written, NodeTree.writtenAll_eq, slotTrees_eq, marks, kind,
      partTrees]

theorem written_slotTree {kind : NodeKind} (plain : kind ≠ .other) (slot : Slot Expr) :
    (slotTree kind slot).written = .mk ⟨kind, slot.mark⟩ [slot.value.nodeTree.written] := by
  simp [slotTree, NodeTree.written, NodeTree.writtenAll_eq, plain]

@[simp] theorem loc_nodeTree (expr : Expr) : expr.nodeTree.loc = expr.loc := by
  cases expr <;> simp [nodeTree, pairTree, NodeTree.loc, loc, marks]

theorem loc_locateAt (expr : Expr) (start : Nat) :
    (expr.locateAt start).1.loc = .spanning start expr.print := by
  rw [loc, marks_locateAt]
  rfl

/-- Below the inner node stand the parts of an expression, the arguments and members around their
values. -/
theorem mem_partTrees {tree : NodeTree} (listed : tree ∈ expr.partTrees) :
    (∃ part ∈ expr.parts, tree = part.nodeTree) ∨
      ∃ mark slot kind, (mark, slot) ∈ expr.slots ∧ kind ≠ .other ∧ tree = slotTree kind slot := by
  cases expr with
  | anonymous marks members =>
    obtain ⟨slot, isSlot, rfl⟩ := List.mem_map.mp listed
    exact .inr ⟨_, slot, _, List.mem_map_of_mem isSlot, by decide, rfl⟩
  | call marks callee arguments =>
    rcases List.mem_cons.mp listed with rfl | later
    · exact .inl ⟨callee, List.mem_cons_self, rfl⟩
    · obtain ⟨slot, isSlot, rfl⟩ := List.mem_map.mp later
      exact .inr ⟨_, slot, _, List.mem_map_of_mem isSlot, by decide, rfl⟩
  | cast | lambda | member | paren =>
    cases List.mem_singleton.mp listed
    exact .inl ⟨_, List.mem_singleton_self _, rfl⟩
  | identifier | literal | other => cases listed

/-! ## Places -/

/-- Arguments and members are located one after the other. -/
theorem locateSlots_ordered (mark : String) (start : Nat) (group : List (Slot Expr)) :
    (locateSlots mark start group).1.Pairwise fun left right =>
      left.mark.loc.stop ≤ right.mark.loc.start := by
  induction group generalizing start with
  | nil => exact .nil
  | cons first rest ih =>
    refine List.pairwise_cons.mpr ⟨?_, ih _⟩
    intro slot later
    obtain ⟨origin, _, offset, _, rfl⟩ := mem_locateSlots later
    simp only [Mark.place, Loc.spanning, String.utf8ByteSize_append]
    omega

theorem partTrees_ordered (expr : Expr) (start : Nat) :
    (expr.locateAt start).1.partTrees.Pairwise fun left right =>
      left.loc.stop ≤ right.loc.start := by
  cases expr with
  | anonymous marks members =>
    exact List.pairwise_map.mpr (locateSlots_ordered _ _ members)
  | call marks callee arguments =>
    refine List.pairwise_cons.mpr ⟨?_, List.pairwise_map.mpr (locateSlots_ordered _ _ arguments)⟩
    intro tree listed
    obtain ⟨slot, isSlot, rfl⟩ := List.mem_map.mp listed
    obtain ⟨origin, _, offset, _, rfl⟩ := mem_locateSlots isSlot
    rw [loc_nodeTree, loc_locateAt, locateAt_text]
    simp only [slotTree, NodeTree.loc, Mark.place, Loc.spanning, String.utf8ByteSize_append]
    omega
  | cast | lambda | member | paren => exact List.pairwise_singleton _ _
  | identifier | literal | other => exact .nil

theorem partTrees_within {tree : NodeTree} (listed : tree ∈ (expr.locateAt start).1.partTrees) :
    tree.loc.Within (.spanning start expr.print) := by
  rcases mem_partTrees listed with ⟨part, isPart, rfl⟩ | ⟨mark, slot, kind, isSlot, _, rfl⟩
  · obtain ⟨origin, _, offset, stands, rfl⟩ := mem_parts_locateAt isPart
    rw [loc_nodeTree, loc_locateAt]
    exact Loc.within_spanning stands start
  · obtain ⟨origin, _, offset, stands, rfl⟩ := mem_slots_locateAt isSlot
    exact Loc.within_spanning stands start

theorem nested_pairTree {marks : Marks} {kind : NodeKind} {below : List NodeTree} {place : Loc}
    (forward : place.start ≤ place.stop) (within : ∀ tree ∈ below, tree.loc.Within place)
    (ordered : below.Pairwise fun left right => left.loc.stop ≤ right.loc.start)
    (deeper : ∀ tree ∈ below, tree.Nested) : (pairTree (marks.place place) kind below).Nested := by
  have inner : (NodeTree.mk ⟨kind, (marks.place place).inner⟩ below).Nested :=
    .mk forward within ordered deeper
  exact inner.single forward ⟨Nat.le_refl _, Nat.le_refl _⟩

/-- The written nodes of a located expression lie like its tree. -/
theorem nested_locateAt (expr : Expr) (start : Nat) :
    (expr.locateAt start).1.nodeTree.written.Nested := by
  induction expr using parts_induction generalizing start with
  | step expr ih =>
    rw [written_nodeTree, marks_locateAt]
    apply nested_pairTree (Loc.spanning_forward _ _)
    · intro tree listed
      obtain ⟨origin, isTree, rfl⟩ := List.mem_map.mp listed
      rw [NodeTree.loc_written]
      exact partTrees_within isTree
    · simpa only [List.pairwise_map, NodeTree.loc_written] using partTrees_ordered expr start
    · intro tree listed
      obtain ⟨tree, isTree, rfl⟩ := List.mem_map.mp listed
      rcases mem_partTrees isTree with ⟨part, isPart, rfl⟩ | ⟨mark, slot, kind, isSlot, plain, rfl⟩
      · obtain ⟨origin, isOrigin, offset, _, rfl⟩ := mem_parts_locateAt isPart
        exact ih origin isOrigin _
      · -- an argument or a member lies around its value, which stands behind the name
        obtain ⟨origin, isOrigin, offset, _, rfl⟩ := mem_slots_locateAt isSlot
        rw [written_slotTree plain]
        refine (ih origin.value (value_mem_parts isOrigin) _).single (Loc.spanning_forward _ _) ?_
        rw [NodeTree.loc_written, loc_nodeTree, loc_locateAt]
        exact Loc.within_spanning (stands_value _ origin) _

/-- What is written in a located expression lies in it. -/
theorem Writes.within (writes : Writes part (expr.locateAt start).1) :
    part.loc.Within (expr.locateAt start).1.loc ∧ part.loc.start ≤ part.loc.stop := by
  obtain ⟨origin, offset, _, stands, rfl⟩ := writes.located
  rw [loc_locateAt, loc_locateAt]
  exact ⟨Loc.within_spanning stands start, Loc.spanning_forward _ _⟩

theorem Wraps.writes {inner : Expr} (wraps : expr.Wraps inner) (writes : Writes part inner) :
    Writes part expr := by
  induction wraps with
  | bare => exact writes
  | paren _ ih | cast _ ih => exact .inside (List.mem_singleton_self _) (ih writes)

end Expr

/-! ## Diagnostics -/

namespace Context

variable {context : Context} {call : Call}

/-- The lambda body that a call is judged by is written in the call. -/
theorem Projects.writes {method : String} {body : Expr} {type : TypeId}
    (projects : context.Projects call method body type) (marks : Marks) :
    Expr.Writes body (.call marks call.callee call.arguments) := by
  obtain ⟨_, _, first, lambda, _⟩ := projects
  obtain ⟨slot, isFirst, rfl⟩ := Option.map_eq_some_iff.mp first
  have inLambda : Expr.Writes body slot.value :=
    (Expr.wraps_lambda_iff.mpr lambda).writes (.inside (List.mem_singleton_self _) .here)
  have isSlot : slot ∈ call.arguments := List.mem_of_head? isFirst
  exact .inside (List.mem_cons_of_mem _ (List.mem_map_of_mem isSlot)) inLambda

/-- What is found at a written call of a located tree is labelled inside the call. -/
theorem label_within {expr : Expr} {outer : Mark} {diagnostic : Diagnostic} {label : Label}
    (writes : Expr.Writes (.call ⟨outer, call.mark⟩ call.callee call.arguments) expr.locate.1)
    (found : context.finding? call = some diagnostic) (listed : label ∈ diagnostic.labels) :
    label.span.file = diagnostic.primary.file ∧
      diagnostic.primary.range.start ≤ label.span.range.start ∧
      label.span.range.start ≤ label.span.range.stop ∧
      label.span.range.stop ≤ diagnostic.primary.range.stop := by
  have finds := context.finds_finding? call
  rw [found] at finds
  cases finds with
  | @refused method body type offender projects refused faults =>
    cases List.mem_singleton.mp listed
    obtain ⟨origin, offset, _, _, same⟩ := writes.located
    have inCall := projects.writes ⟨outer, call.mark⟩
    rw [same] at inCall
    obtain ⟨⟨start, stop⟩, forward⟩ := inCall.within
    have place : call.mark.loc = (origin.locateAt (0 + offset)).1.loc := by
      have marks := congrArg Expr.marks same
      rw [Expr.marks_locateAt] at marks
      rw [Expr.loc_locateAt]
      exact congrArg (·.inner.loc) marks
    rw [← place] at start stop
    refine ⟨rfl, ?_⟩
    simp only [diagnose, Code.warning, Span.ofLoc, TextRange.ofLoc]
    omega

end Context

/-- The places of a located tree lie like its nodes, as far as these are not below a shape that is
given by its text: each lies in the one above it, and those beside each other come one after the
other in visiting order. So nodes are visited in the order in which they start. And what a check
reports at a written call, whatever else is checked with it, is labelled inside the call, also where
offsets are too large for a range. -/
theorem Expr.locate_nests (expr : Expr) :
    let located := expr.locate.1
    let written := located.nodeTree.written
    located.nodeTree.preorder = located.nodes ∧ written.preorder.Sublist located.nodes ∧
      written.Nested ∧
      written.preorder.Pairwise (fun first second =>
        first.mark.loc.start ≤ second.mark.loc.start) ∧
      ∀ config model flag unit,
        let report := Pass.checkUnit config model flag unit
        report.diagnostics = (Event.outcomes report.events).flatMap Prod.snd ∧
        ∀ call found, (call, found) ∈ Event.outcomes report.events →
          ∀ outer, Writes (.call ⟨outer, call.mark⟩ call.callee call.arguments) located →
            ∀ diagnostic ∈ found, ∀ label ∈ diagnostic.labels,
              label.span.file = diagnostic.primary.file ∧
                diagnostic.primary.range.start ≤ label.span.range.start ∧
                label.span.range.start ≤ label.span.range.stop ∧
                label.span.range.stop ≤ diagnostic.primary.range.stop := by
  intro located written
  have visited : located.nodeTree.preorder = located.nodes := preorder_nodeTree located
  have nested : written.Nested := nested_locateAt expr 0
  refine ⟨visited, visited ▸ NodeTree.preorder_written _, nested, nested.starts_ordered, ?_⟩
  intro config model flag unit report
  obtain ⟨sites, outcomes, diagnostics⟩ := Pass.exists_outcomes config model flag unit
  constructor
  · rw [outcomes, diagnostics, List.flatMap_map]
  · intro call found told outer writes diagnostic isFound label listed
    rw [outcomes] at told
    obtain ⟨site, _, same⟩ := List.mem_map.mp told
    cases same
    exact Context.label_within writes (Option.mem_toList.mp isFound) listed

end QueryAudit
