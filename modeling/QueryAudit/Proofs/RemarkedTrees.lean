import Mathlib.Data.List.Basic
import QueryAudit.Proofs.SettledCalls
import QueryAudit.Proofs.TreeInduction

/-! Trees with other marks on their nodes. Names, literals and shapes stay as they are, so a tree
prints the same, has the same calls in the same order, the same ones among them are settled, and
they project the same bodies. -/
namespace QueryAudit

variable {change : Mark → Mark}

/-- Changes the marks of both nodes of an expression. -/
def Marks.map (change : Mark → Mark) (marks : Marks) : Marks :=
  ⟨change marks.outer, change marks.inner⟩

def Node.remark (change : Mark → Mark) (node : Node) : Node :=
  ⟨node.kind, change node.mark⟩

namespace Expr

mutual

/-- A tree in which every node has changed its mark. -/
def remark (change : Mark → Mark) : Expr → Expr
  | anonymous marks members => anonymous (marks.map change) (remarkSlots change members)
  | call marks callee arguments =>
    call (marks.map change) (remark change callee) (remarkSlots change arguments)
  | cast marks typeName value => cast (marks.map change) typeName (remark change value)
  | identifier marks name => identifier (marks.map change) name
  | lambda marks parameters body => lambda (marks.map change) parameters (remark change body)
  | literal marks value => literal (marks.map change) value
  | member marks left name => member (marks.map change) (remark change left) name
  | paren marks value => paren (marks.map change) (remark change value)
  | other marks text children => other (marks.map change) text (remarkChildren change children)

def remarkSlots (change : Mark → Mark) : List (Slot Expr) → List (Slot Expr)
  | [] => []
  | ⟨mark, name, value⟩ :: rest =>
    ⟨change mark, name, remark change value⟩ :: remarkSlots change rest

def remarkChildren (change : Mark → Mark) : List Expr → List Expr
  | [] => []
  | child :: rest => remark change child :: remarkChildren change rest

end

-- Nearly every proof below needs the equations of these; here they are made once for all of them.
attribute [simp] remark remarkSlots remarkChildren

theorem remarkSlots_eq (slots : List (Slot Expr)) :
    remarkSlots change slots =
      slots.map fun slot => ⟨change slot.mark, slot.name, slot.value.remark change⟩ := by
  induction slots with
  | nil => rfl
  | cons slot rest ih => rw [remarkSlots, ih, List.map_cons]

theorem remarkChildren_eq (children : List Expr) :
    remarkChildren change children = children.map (remark change) := by
  induction children with
  | nil => rfl
  | cons child rest ih => rw [remarkChildren, ih, List.map_cons]

@[simp] theorem marks_remark (expr : Expr) :
    (expr.remark change).marks = expr.marks.map change := by
  cases expr <;> rfl

theorem unwrapped_remark (expr : Expr) :
    (expr.remark change).unwrapped = expr.unwrapped.remark change := by
  induction expr with
  | cast _ _ _ ih | paren _ _ ih => simpa only [remark, unwrapped] using ih
  | anonymous | call | identifier | lambda | literal | member | other =>
    simp only [remark, unwrapped]

theorem printSlots_remark {mark : String} {slots : List (Slot Expr)}
    (same : ∀ slot ∈ slots, (slot.value.remark change).print = slot.value.print) :
    printSlots mark (remarkSlots change slots) = printSlots mark slots := by
  induction slots with
  | nil => rfl
  | cons slot rest ih =>
    simp only [remarkSlots, printSlots]
    rw [same slot List.mem_cons_self,
      ih fun other listed => same other (List.mem_cons_of_mem _ listed)]

@[simp] theorem print_remark (expr : Expr) : (expr.remark change).print = expr.print := by
  induction expr with
  | anonymous marks members ih => simp only [remark, print, printSlots_remark ih]
  | call marks callee arguments ihCallee ihArguments =>
    simp only [remark, print, ihCallee, printSlots_remark ihArguments]
  | cast _ _ _ ih | lambda _ _ _ ih | member _ _ _ ih | paren _ _ ih =>
    simp only [remark, print, ih]
  | identifier | literal | other => simp only [remark, print]

end Expr

/-- A call in which every node has changed its mark. -/
def Call.remark (change : Mark → Mark) (call : Call) : Call :=
  ⟨change call.mark, call.callee.remark change, Expr.remarkSlots change call.arguments⟩

namespace Expr

/-- The calls of a changed tree are the changed calls, in the same order. -/
theorem calls_remark (expr : Expr) :
    (expr.remark change).calls = expr.calls.map (Call.remark change) := by
  have slots (slots : List (Slot Expr))
      (same : ∀ slot ∈ slots,
        (slot.value.remark change).calls = slot.value.calls.map (Call.remark change)) :
      slotCalls (remarkSlots change slots) = (slotCalls slots).map (Call.remark change) := by
    rw [slotCalls_eq, slotCalls_eq, remarkSlots_eq, List.flatMap_map, List.map_flatMap]
    exact List.flatMap_congr same
  induction expr with
  | anonymous marks members ih => simp only [remark, calls, slots members ih]
  | call marks callee arguments ihCallee ihArguments =>
    simp only [remark, calls, ihCallee, slots arguments ihArguments, List.map_cons,
      List.map_append]
    rfl
  | cast _ _ _ ih | lambda _ _ _ ih | member _ _ _ ih | paren _ _ ih =>
    simp only [remark, calls, ih]
  | identifier | literal => simp only [remark, calls, List.map_nil]
  | other marks text children ih =>
    simp only [remark, calls]
    rw [childCalls_eq, childCalls_eq, remarkChildren_eq, List.flatMap_map, List.map_flatMap]
    exact List.flatMap_congr ih

theorem childCalls_remark (roots : List Expr) :
    childCalls (remarkChildren change roots) = (childCalls roots).map (Call.remark change) := by
  rw [childCalls_eq, childCalls_eq, remarkChildren_eq, List.flatMap_map, List.map_flatMap]
  exact List.flatMap_congr fun root _ => calls_remark root

/-- The nodes of a changed tree are the changed nodes, in the same order. -/
theorem nodes_remark (expr : Expr) :
    (expr.remark change).nodes = expr.nodes.map (Node.remark change) := by
  have slots (kind : NodeKind) (slots : List (Slot Expr))
      (same : ∀ slot ∈ slots,
        (slot.value.remark change).nodes = slot.value.nodes.map (Node.remark change)) :
      slotNodes kind (remarkSlots change slots) =
        (slotNodes kind slots).map (Node.remark change) := by
    rw [slotNodes_eq, slotNodes_eq, remarkSlots_eq, List.flatMap_map, List.map_flatMap]
    apply List.flatMap_congr
    intro slot listed
    rw [same slot listed, List.map_cons]
    rfl
  induction expr with
  | anonymous marks members ih =>
    simp only [remark, nodes, slots .anonymousMember members ih, List.map_append]
    rfl
  | call marks callee arguments ihCallee ihArguments =>
    simp only [remark, nodes, ihCallee, slots .argument arguments ihArguments, List.map_append]
    rfl
  | cast _ _ _ ih | lambda _ _ _ ih | member _ _ _ ih | paren _ _ ih =>
    simp only [remark, nodes, ih, List.map_append]
    rfl
  | identifier | literal => rfl
  | other marks text children ih =>
    have below : childNodes (remarkChildren change children) =
        (childNodes children).map (Node.remark change) := by
      rw [childNodes_eq, childNodes_eq, remarkChildren_eq, List.flatMap_map, List.map_flatMap]
      exact List.flatMap_congr ih
    simp only [remark, nodes, below, List.map_append]
    rfl

theorem childNodes_remark (roots : List Expr) :
    childNodes (remarkChildren change roots) = (childNodes roots).map (Node.remark change) := by
  rw [childNodes_eq, childNodes_eq, remarkChildren_eq, List.flatMap_map, List.map_flatMap]
  exact List.flatMap_congr fun root _ => nodes_remark root

end Expr

namespace Call

@[simp] theorem print_remark (call : Call) : (call.remark change).print = call.print := by
  simp only [Call.print, remark, Expr.print, Expr.print_remark]
  rw [Expr.printSlots_remark fun slot _ => slot.value.print_remark]

@[simp] theorem firstArgument?_remark (call : Call) :
    (call.remark change).firstArgument? = call.firstArgument?.map (Expr.remark change) := by
  simp only [firstArgument?, remark, Expr.remarkSlots_eq, List.head?_map, Option.map_map]
  rfl

theorem receiverNames_remark (config : Config) (expr : Expr) :
    receiverNames config (expr.remark change) = receiverNames config expr := by
  cases expr <;> simp only [Expr.remark, receiverNames]

@[simp] theorem isCandidate_remark (config : Config) (call : Call) :
    (call.remark change).isCandidate config = call.isCandidate config := by
  obtain ⟨mark, callee, arguments⟩ := call
  cases callee <;> simp only [remark, Expr.remark, isCandidate, receiverNames_remark]

theorem namesOperator_remark (config : Config) (call : Call) :
    (call.remark change).namesOperator config = call.namesOperator config := by
  obtain ⟨mark, callee, arguments⟩ := call
  cases callee <;> simp only [remark, Expr.remark, namesOperator]

@[simp] theorem chained?_remark (config : Config) (call : Call) :
    (call.remark change).chained? config = (call.chained? config).map (remark change) := by
  obtain ⟨mark, callee, arguments⟩ := call
  cases callee with
  | member marks left name =>
    cases left with
    | call inner callee slots =>
      have names : (remark change ⟨inner.inner, callee, slots⟩).namesOperator config =
          (⟨inner.inner, callee, slots⟩ : Call).namesOperator config :=
        namesOperator_remark config _
      simp only [remark, Expr.remark, chained?, Marks.map] at names ⊢
      rw [names]
      split <;> rfl
    | _ => rfl
  | _ => rfl

end Call

namespace Pass

variable {config : Config}

/-- A site in which every node has changed its mark. -/
def Site.remark (change : Mark → Mark) (site : Site) : Site :=
  (site.1.remark change, site.2)

/-- Changed calls are settled in the same order. -/
theorem settleOrder_remark (settled : Bool) (number : Nat) (calls : List Call) :
    settleOrder config settled number (calls.map (Call.remark change)) =
      (settleOrder config settled number calls).map (Site.remark change) :=
  settleOrder_map (Call.isCandidate_remark config) (Call.chained?_remark config) settled number calls

theorem sitesOf_remark (roots : List Expr) :
    sitesOf config (Expr.remarkChildren change roots) =
      (sitesOf config roots).map (Site.remark change) := by
  rw [sitesOf, Expr.childCalls_remark, settleOrder_remark, sitesOf]

end Pass

/-- A change of marks that keeps symbols and moves types. -/
def Mark.Moves (place : TypeId → TypeId) (change : Mark → Mark) : Prop :=
  ∀ mark, (change mark).facts.symbol = mark.facts.symbol ∧
    (change mark).facts.convertedType = mark.facts.convertedType.map place

namespace Context

variable {place : TypeId → TypeId} {config : Config} {own whole : Store} {file other : FileId}
  {text otherText : Option String} {call : Call} {method : String}

/-- A changed call projects the changed body, with the type where it was moved. -/
theorem Projects.remark (moves : Mark.Moves place change) {body : Expr} {type : TypeId}
    (projects : Projects ⟨config, .ofFacts own, other, text⟩ call method body type) :
    Projects ⟨config, .ofFacts whole, file, otherText⟩ (call.remark change) method
      (body.remark change) (place type) := by
  cases projects with
  | @intro _ argument _ marks parameters _ resolved remote first lambda typed =>
    have resolvedThere : (change call.mark).facts.symbol = some (.method method (some _)) :=
      (moves call.mark).1.trans resolved
    have firstThere : (call.remark change).firstArgument? = some (argument.remark change) := by
      rw [Call.firstArgument?_remark, first, Option.map_some]
    have lambdaThere : (argument.remark change).unwrapped =
        .lambda (marks.map change) parameters (body.remark change) := by
      rw [Expr.unwrapped_remark, lambda, Expr.remark]
    have typedThere : (body.remark change).marks.outer.facts.convertedType = some (place type) := by
      have held : body.marks.outer.facts.convertedType = some type := typed
      rw [Expr.marks_remark, Marks.map, (moves _).2, held, Option.map_some]
    exact .intro resolvedThere remote firstThere lambdaThere typedThere

/-- A changed call projects nothing else. -/
theorem Projects.of_remark (moves : Mark.Moves place change) {there : TypeId} {bodyThere : Expr}
    (own : Store) (other : FileId) (text : Option String)
    (projects : Projects ⟨config, .ofFacts whole, file, otherText⟩ (call.remark change) method
      bodyThere there) :
    ∃ body type, Projects ⟨config, .ofFacts own, other, text⟩ call method body type ∧
      bodyThere = body.remark change ∧ there = place type := by
  obtain ⟨resolved, remote, first, lambda, typed⟩ := projects
  have resolvedOwn : call.mark.facts.symbol = some (.method method (some _)) :=
    (moves call.mark).1.symm.trans resolved
  rw [Call.firstArgument?_remark] at first
  obtain ⟨argument, firstOwn, rfl⟩ := Option.map_eq_some_iff.mp first
  rw [Expr.unwrapped_remark] at lambda
  cases lambdaOwn : argument.unwrapped with
  | lambda marks parameters body =>
    rw [lambdaOwn] at lambda
    cases lambda
    have held : (change body.marks.outer).facts.convertedType = some there := by
      have isTyped : (body.remark change).marks.outer.facts.convertedType = some there := typed
      rwa [Expr.marks_remark] at isTyped
    rw [(moves _).2] at held
    obtain ⟨type, typedOwn, rfl⟩ := Option.map_eq_some_iff.mp held
    exact ⟨body, type, .intro resolvedOwn remote firstOwn lambdaOwn typedOwn, rfl, rfl⟩
  | _ =>
    rw [lambdaOwn] at lambda
    cases lambda

end Context
end QueryAudit
